/-
Finding the places of a graft.

Members are compared by the names they have at run time: those of the class go through a
remapper, those that are looked for through the naming mode.

* `findMethod` — the method to change;
* `findAnchor` — the first call of the wanted callee in it;
* `FieldRecords.scan` — the fields that the grafted code reads;
* `GraftConfig.knownAs` — the canonical name of a method that a graft looks for.
-/
import ClassGraft.ClassFile.Basic
import ClassGraft.Graft.Config
import ClassGraft.Naming.Mode
import ClassGraft.Naming.Remapper
import ClassGraft.Trace

namespace ClassGraft

/-- The place of the first method whose run-time name is that of `canonical`. -/
def findMethod {σ : Type} (c : ClassFile) (mode : NamingMode) (remapper : Remapper)
    (canonical : String) : Step σ Nat := do
  let owner ← Step.ofExcept c.name
  let expected := mode.resolve canonical
  let found := c.methods.zipIdx.find? fun (method, _) =>
    remapper.methodName owner method.name method.descriptor == expected
  match found with
  | none => throw (.methodNotFound owner expected)
  | some (method, place) =>
    Step.note .debug s!"Located {owner}.{method.name}{method.descriptor} as method #{place}"
    return place

/-- Whether an instruction calls a method of the given run-time name. -/
def Instruction.callsName (remapper : Remapper) (expected : String) : Instruction → Bool
  | .invoke callee _ => remapper.methodName callee.owner callee.name callee.descriptor == expected
  | _ => false

/-- The position of the first call of `canonicalCallee` in a method. -/
def findAnchor {σ : Type} (method : Method) (mode : NamingMode) (remapper : Remapper)
    (canonicalCallee : String) : Step σ Nat := do
  let expected := mode.resolve canonicalCallee
  let found := method.code?.bind fun code =>
    code.instructions.findIdx? (Instruction.callsName remapper expected)
  match found with
  | none => throw (.anchorNotFound method.name expected)
  | some index =>
    Step.note .debug s!"Anchor call to {expected} at instruction {index}"
    return index

/-- A field as its class declares it. -/
structure FieldRecord where
  name : String
  descriptor : String
  deriving DecidableEq, Repr

/-- Fields by the names that they have at run time. -/
abbrev FieldRecords := List (String × FieldRecord)

namespace FieldRecords

/-- Records a field; of several fields of one name the first stays. -/
def record (records : FieldRecords) (name : String) (field : FieldRecord) : FieldRecords :=
  if (records.lookup name).isSome then records else records ++ [(name, field)]

/-- Records those of `fields` whose run-time names are wanted. -/
def scanFields {σ : Type} (owner : String) (remapper : Remapper) (wanted : List String) :
    List Field → FieldRecords → Step σ FieldRecords
  | [], records => return records
  | field :: rest, records => do
    let mapped := remapper.fieldName owner field.name field.descriptor
    if wanted.contains mapped then
      Step.note .debug s!"Field {mapped} ({field.name}) has type {field.descriptor}"
      let records := FieldRecords.record records mapped ⟨field.name, field.descriptor⟩
      scanFields owner remapper wanted rest records
    else scanFields owner remapper wanted rest records

/-- The fields of a class whose run-time names are wanted. -/
def scan {σ : Type} (c : ClassFile) (remapper : Remapper) (wanted : List String) :
    Step σ FieldRecords := do
  let owner ← Step.ofExcept c.name
  scanFields owner remapper wanted c.fields []

/-- The field of a run-time name. -/
def find (records : FieldRecords) (name : String) : Except Fault FieldRecord :=
  match records.lookup name with
  | some field => .ok field
  | none => .error (.unresolvedField name)

end FieldRecords

/-- The canonical name of a method that a graft looks for: the method to change, or the callee
of its anchor. -/
def GraftConfig.knownAs (config : GraftConfig) (mode : NamingMode) (remapper : Remapper)
    (owner name descriptor : String) : Option String :=
  let canonical := mode.canonicalName (remapper.methodName owner name descriptor)
  [config.targetMethod, config.anchorCallee].find? (· == canonical)

end ClassGraft
