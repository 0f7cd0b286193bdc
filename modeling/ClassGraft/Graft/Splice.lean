/-
Splicing the handler call into a method body.

The anchor is a call with a boolean result, which the method discards.  The splice stores that
result in a fresh local, calls the handler with world, player, the three coordinates that the
method was called with and the stored result, and takes out the instruction that used to discard
it.

* `handlerCall` — the eleven instructions behind the anchor;
* `discardBehind` — the `pop` to take out: the first instruction that does something;
* `splice` — both edits with all that is checked beforehand.
-/
import ClassGraft.Graft.Config
import ClassGraft.Graft.Draft
import ClassGraft.Graft.Locate

namespace ClassGraft

/-- What a splice needs to know beside the body. -/
structure Injection where
  config : GraftConfig
  mode : NamingMode
  /-- The class that is changed. -/
  owner : String
  fields : FieldRecords

/-- What a splice has done. -/
structure Spliced where
  /-- The local that holds the captured result. -/
  slot : UInt16
  /-- The kind of the captured result. -/
  kind : ValueKind
  /-- The position of the first instruction put in. -/
  start : Nat
  /-- The position behind the last instruction put in. -/
  stop : Nat
  /-- The position that the instruction taken out had. -/
  removed : Nat
  deriving DecidableEq, Repr

/-- A reference to a field, whose constant is added where it is missing. -/
def fieldMember (owner name descriptor : String) : PoolEdit MemberRef := do
  return ⟨← ConstantPool.fieldIndex owner name descriptor, owner, name, descriptor⟩

/-- A reference to a method, whose constant is added where it is missing. -/
def methodMember (owner name descriptor : String) : PoolEdit MemberRef := do
  return ⟨← ConstantPool.methodIndex owner name descriptor, owner, name, descriptor⟩

/-- A field that is handed to the handler holds a reference. -/
def checkReference (field : FieldRecord) : Except Fault Unit := do
  let type ← FieldType.parse field.descriptor
  if type.kind = .reference then return () else throw (.invalidDescriptor field.descriptor)

/-- The instructions that store a result of `kind` in `slot` and call the handler. -/
def handlerCall (slot : UInt16) (kind : ValueKind) (handlerHolder world player : MemberRef)
    (handler : MemberRef) : Instructions :=
  [.storeLocal slot kind,
    .loadField handlerHolder true,
    .loadLocal 0 .reference,
    .loadField world false,
    .loadLocal 0 .reference,
    .loadField player false,
    .loadLocal 1 .int,
    .loadLocal 2 .int,
    .loadLocal 3 .int,
    .loadLocal slot kind,
    .invoke handler .virtual]

/-- The handler call for a slot, with the constants that it needs. -/
def injectedSequence (injection : Injection) (slot : UInt16) (kind : ValueKind) :
    Step Draft Instructions := do
  let config := injection.config
  let fieldOf := fun (canonical : String) =>
    Step.ofExcept (injection.fields.find (injection.mode.resolve canonical))
  let world ← fieldOf config.worldField
  let player ← fieldOf config.playerField
  Step.ofExcept (checkReference world)
  Step.ofExcept (checkReference player)
  let descriptor := GraftConfig.handlerDescriptor world.descriptor player.descriptor
  Draft.onPool do
    let handlerHolder ← fieldMember config.handlerClass config.handlerField config.handlerType
    let world ← fieldMember injection.owner world.name world.descriptor
    let player ← fieldMember injection.owner player.name player.descriptor
    let handler ← methodMember config.handlerClass config.handlerMethod descriptor
    return handlerCall slot kind handlerHolder world player handler

/-- The position of the `pop` in `list`, the first instruction of which stands at `index`.  Only
instructions that do nothing may come before it. -/
def discardBehind (method : String) (index : Nat) : List Instruction → Except Fault Nat
  | [] => .error (.inconsistent method index .endsBeforePop)
  | i :: rest =>
    if i = .pop then .ok index
    else if i.isNop then discardBehind method (index + 1) rest
    else .error (.inconsistent method index (.notAPop i.text))

/-- The callee of the anchor, which is a call with an `int` result. -/
def anchorCallee (method : Method) (code : Code) (anchor : Nat) :
    Except Fault (MemberRef × ValueKind) :=
  match code.instructions[anchor]? with
  | none => .error (.inconsistent method.name anchor .anchorOutOfRange)
  | some (.invoke callee _) => do
    let d ← MethodDescriptor.parse callee.descriptor
    if d.resultKind = some .int then return (callee, .int)
    else throw (.inconsistent method.name anchor (.notBoolean callee.text d.resultKind))
  | some i => .error (.inconsistent method.name anchor (.notACall i.text))

/-- A method that is called with coordinates has a receiver and three `int` parameters first. -/
def checkCoordinates (method : Method) (anchor : Nat) : Except Fault Unit := do
  if method.isStatic then throw (.inconsistent method.name anchor .noReceiver)
  else
    let d ← MethodDescriptor.parse method.descriptor
    let coordinates := (d.params.take 3).map FieldType.kind
    if coordinates = [.int, .int, .int] then return ()
    else throw (.inconsistent method.name anchor (.noCoordinates method.descriptor))

/-- The first local that neither the declared sizes nor an instruction takes. -/
def freeSlot [Build] (method : Method) (code : Code) (anchor : Nat) (kind : ValueKind) :
    Except Fault UInt16 := do
  let slot := code.localWatermark (← method.parameterSlots)
  if slot + kind.width ≤ 65535 then return UInt16.ofNat slot
  else throw (.inconsistent method.name anchor .noFreeLocal)

/-- Splices the handler call behind the anchor of `method`. -/
def splice [Build] (method : Method) (anchor : Nat) (injection : Injection) :
    Step Draft Spliced := do
  let code := (← Step.current).code
  let (callee, kind) ← Step.ofExcept (anchorCallee method code anchor)
  Step.ofExcept (checkCoordinates method anchor)
  let slot ← Step.ofExcept (freeSlot method code anchor kind)
  Step.note .debug s!"Captured result of {callee.text} goes to local {slot.toNat}"
  let sequence ← injectedSequence injection slot kind
  let start := anchor + 1
  let stop := start + sequence.length
  let extended := code.insert start sequence
  Draft.setCode extended
  let removed ← Step.ofExcept <|
    discardBehind method.name stop (extended.instructions.drop stop)
  let (_, spliced) ← Step.ofExcept (extended.remove method.name removed)
  Draft.setCode spliced
  Step.note .debug s!"Removed pop at instruction {removed}"
  return { slot, kind, start, stop, removed }

end ClassGraft
