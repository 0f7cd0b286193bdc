/-
Grafting the handler call into a class.

`Transformer.patch` works on a draft of the target method and changes the class only when
splicing and measuring have succeeded; nothing outside the body and the end of the constant pool
is touched.  `Transformer.transform` does so for the bytes of a class that is being loaded, and
`patchClass` with the default configuration.
-/
import ClassGraft.ClassFile.Reader
import ClassGraft.ClassFile.Writer
import ClassGraft.Graft.Splice

namespace ClassGraft

variable [Build]

/-- What a graft has done. -/
structure GraftReport where
  className : String
  method : String
  descriptor : String
  /-- The position of the call whose result is captured. -/
  anchor : Nat
  /-- The local that holds the result. -/
  slot : UInt16
  /-- The number of instructions put in. -/
  inserted : Nat
  /-- The position that the instruction taken out had. -/
  removed : Nat
  maxStack : UInt16
  maxLocals : UInt16
  deriving DecidableEq, Repr

/-- A configuration with the remapper that names go through. -/
structure Transformer where
  config : GraftConfig := {}
  remapper : Remapper := .identity

namespace Transformer

/-- Splices the handler call into a draft of `method` and measures it anew. -/
def graft (method : Method) (anchor : Nat) (injection : Injection) :
    Step Draft (Spliced × Maxima) := do
  let spliced ← splice method anchor injection
  return (spliced, ← remeasure method)

/-- Grafts the handler call into the class that is worked on. -/
def patch (t : Transformer) (mode : NamingMode) : Step ClassFile GraftReport := do
  let c ← Step.current
  let owner ← Step.ofExcept c.name
  Step.note .debug s!"Patching {owner} ({mode.label} names)"
  let wanted := [mode.resolve t.config.worldField, mode.resolve t.config.playerField]
  let fields ← FieldRecords.scan c t.remapper wanted
  let place ← findMethod c mode t.remapper t.config.targetMethod
  let fault := Fault.methodNotFound owner (mode.resolve t.config.targetMethod)
  let method ← Step.ofExcept ((c.methods[place]?).elim (.error fault) .ok)
  let anchor ← findAnchor method mode t.remapper t.config.anchorCallee
  let fault := Fault.anchorNotFound method.name (mode.resolve t.config.anchorCallee)
  let code ← Step.ofExcept (method.code?.elim (.error fault) .ok)
  let injection : Injection := { config := t.config, mode, owner, fields }
  let ((spliced, maxima), draft) ← Step.within ⟨code, c.pool⟩ (graft method anchor injection)
  Step.replace { c.withCode place draft.code with pool := draft.pool }
  Step.note .info <|
    s!"Patched {owner}.{method.name}{method.descriptor}: handler call after instruction " ++
    s!"{anchor}, result in local {spliced.slot.toNat}"
  return {
    className := owner
    method := method.name
    descriptor := method.descriptor
    anchor
    slot := spliced.slot
    inserted := spliced.stop - spliced.start
    removed := spliced.removed
    maxStack := maxima.maxStack
    maxLocals := maxima.maxLocals }

/-- The bytes of a class with the handler call grafted in. -/
def patchBytes {σ : Type} (t : Transformer) (mode : NamingMode) (bytes : Bytes) : Step σ Bytes := do
  let c ← Step.ofExcept (ClassFile.ofBytes bytes)
  let (_, patched) ← Step.within c (t.patch mode)
  Step.ofExcept patched.toBytes

/-- Handles a class that is being loaded: all but the target pass unchanged.  The class is
obfuscated if it is stored under another name than the one it is known by. -/
def transform {σ : Type} (t : Transformer) (name transformedName : String) (bytes : Bytes) :
    Step σ Bytes := do
  if t.config.isTarget transformedName then
    try t.patchBytes (.ofObfuscated (name ≠ transformedName)) bytes
    catch fault =>
      if fault ≠ .overflow then
        Step.note .warn s!"Could not patch {transformedName} ({name}): {fault.message}"
      throw fault
  else return bytes

end Transformer

/-- Grafts with the default configuration and names as they are. -/
def patchClass {σ : Type} (bytes : Bytes) (mode : NamingMode) : Step σ Bytes :=
  Transformer.patchBytes {} mode bytes

end ClassGraft
