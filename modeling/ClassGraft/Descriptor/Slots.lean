/-
Counts of slots.

Slots of locals and of the operand stack are counted in sixteen bits.  What becomes of a count that
does not fit depends on how the program was built: a build that checks its sums stops there, any
other goes on with the low sixteen bits.  Everything that counts slots takes the build as an
instance, so that what is said of it is said of every build.
-/
import ClassGraft.Fault

namespace ClassGraft

/-- How the program was built. -/
class Build where
  /-- Whether a sum that sixteen bits cannot hold stops the program. -/
  checksSums : Bool

namespace Build

/-- A build that stops at such a sum, as one for development does. -/
@[reducible] def checked : Build := ⟨true⟩

/-- A build that drops the high bits of such a sum, as one for release does. -/
@[reducible] def wrapping : Build := ⟨false⟩

end Build

/-- A sum of slots as sixteen bits hold it. -/
def Slots.hold [Build] (sum : Nat) : Except Fault Nat :=
  if sum < 65536 then .ok sum
  else if Build.checksSums then .error .overflow
  else .ok (sum % 65536)

end ClassGraft
