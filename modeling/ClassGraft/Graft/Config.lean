/-
What is grafted where.

A configuration names the class, the method and the call after which the handler is called, the
two fields that are handed to it, and the handler itself.
-/

namespace ClassGraft

/-- The names that a graft goes by.  Members of the class are named canonically. -/
structure GraftConfig where
  /-- The class to change, with dots or slashes. -/
  targetClass : String := "net.minecraft.item.ItemInWorldManager"
  /-- The method to change. -/
  targetMethod : String := "uncheckedTryHarvestBlock"
  /-- The method whose result is handed to the handler. -/
  anchorCallee : String := "tryHarvestBlock"
  worldField : String := "theWorld"
  playerField : String := "thisPlayerMP"
  /-- The internal name of the handler's class. -/
  handlerClass : String := "portablejim/veinminer/VeinMiner"
  /-- The static field that holds the handler. -/
  handlerField : String := "instance"
  handlerMethod : String := "blockMined"
  deriving DecidableEq, Repr, Inhabited

namespace GraftConfig

/-- The descriptor of the handler's field. -/
def handlerType (c : GraftConfig) : String := s!"L{c.handlerClass};"

/-- The descriptor of the handler: world, player, three coordinates and the captured result. -/
def handlerDescriptor (world player : String) : String := s!"({world}{player}IIIZ)V"

/-- Dots and slashes separate the parts of a class name alike. -/
def separated (name : String) : List Char :=
  name.toList.map fun c => if c = '.' then '/' else c

/-- Whether a name is that of the class to change. -/
def isTarget (c : GraftConfig) (name : String) : Bool :=
  separated name == separated c.targetClass

end GraftConfig

end ClassGraft
