/-
What a patch leaves alone.

A patch works on a draft, so a class is left as it was by a patch that fails, at whatever point it
does so (`Step.Keeps`, `Step.FallsBack`).  A patch that succeeds changes one body and adds to the
pool: everything else of the class, of the method and of the body stays (`Code.KeepsTables`,
`Method.ChangesBody`, `ClassFile.ChangesOnly`), so that whatever refers to the pool by an index goes
on to mean the same.  `Transformer.patch_changesOnly` says both.
-/
import ClassGraft.Proofs.Failing
import ClassGraft.Proofs.PatchedDepths

namespace ClassGraft

/-! ### Steps that fail -/

namespace Step

variable {σ τ α β : Type}

/-- Whether a step leaves the value that it works on as it is, whether it succeeds or fails. -/
structure Keeps (m : Step σ α) : Prop where
  ok : ∀ ⦃s x s'⦄, m s = .ok x s' → s'.value = s.value
  error : ∀ ⦃s fault s'⦄, m s = .error fault s' → s'.value = s.value

/-- Whether a step, if it fails, leaves the value that it works on as it was. -/
def FallsBack (m : Step σ α) : Prop :=
  ∀ ⦃s fault s'⦄, m s = .error fault s' → s'.value = s.value

namespace Keeps

theorem pure (x : α) : Keeps (Pure.pure x : Step σ α) where
  ok := by
    intro s y s' h
    obtain ⟨-, rfl⟩ := pure_eq_ok_iff.mp h
    rfl
  error := by
    intro s fault s' h
    exact absurd (show EStateM.Result.ok x s = .error fault s' from h) (by simp)

theorem throw (fault : Fault) : Keeps (MonadExcept.throw fault : Step σ α) where
  ok := fun _ _ _ h => (throw_eq_ok_iff.mp h).elim
  error := by
    intro s fault' s' h
    obtain ⟨-, rfl⟩ := EStateM.Result.error.inj (show EStateM.Result.error fault s = _ from h)
    rfl

theorem ofExcept (e : Except Fault α) : Keeps (Step.ofExcept e : Step σ α) := by
  cases e with
  | error fault => exact .throw fault
  | ok x => exact .pure x

theorem note (level : LogLevel) (message : String) :
    Keeps (Step.note level message : Step σ Unit) where
  ok := by
    intro s u s' h
    rw [note_eq_ok_iff.mp h]
  error := by
    intro s fault s' h
    exact absurd h (by simp [Step.note])

theorem current : Keeps (Step.current : Step σ σ) where
  ok := by
    intro s x s' h
    rw [(current_eq_ok_iff.mp h).2]
  error := by
    intro s fault s' h
    exact absurd h (by simp [Step.current])

/-- What is done to a value of its own does not touch the value that is worked on. -/
theorem within (value : τ) (m : Step τ α) : Keeps (Step.within value m : Step σ (α × τ)) where
  ok := by
    rintro s ⟨x, value'⟩ s' h
    exact (within_eq_ok_iff.mp h).2
  error := by
    intro s fault s' h
    obtain ⟨t, -, rfl⟩ := within_eq_error_iff.mp h
    rfl

theorem bind {m : Step σ α} {f : α → Step σ β} (hm : Keeps m) (hf : ∀ x, Keeps (f x)) :
    Keeps (m >>= f) where
  ok := by
    intro s y s'' h
    obtain ⟨x, s', hx, h⟩ := bind_eq_ok_iff.mp h
    exact ((hf x).ok h).trans (hm.ok hx)
  error := by
    intro s fault s'' h
    rcases bind_eq_error_iff.mp h with h | ⟨x, s', hx, h⟩
    · exact hm.error h
    · exact ((hf x).error h).trans (hm.ok hx)

end Keeps

/-- What only keeps the value may come before a step that falls back. -/
theorem FallsBack.behind {m : Step σ α} {f : α → Step σ β} (hm : Keeps m)
    (hf : ∀ x, FallsBack (f x)) : FallsBack (m >>= f) := by
  intro s fault s'' h
  rcases bind_eq_error_iff.mp h with h | ⟨x, s', hx, h⟩
  · exact hm.error h
  · exact (hf x h).trans (hm.ok hx)

end Step

open Step

theorem FieldRecords.keeps_scan (c : ClassFile) (remapper : Remapper) (wanted : List String) :
    Keeps (scan c remapper wanted : Step ClassFile FieldRecords) := by
  refine (Keeps.ofExcept c.name).bind fun owner => ?_
  -- The induction is on the fields that are left, for all records collected before.
  generalize c.fields = fields
  generalize ([] : FieldRecords) = records
  induction fields generalizing records with
  | nil => exact .pure records
  | cons field rest ih =>
    rw [scanFields]
    split
    · exact (Keeps.note _ _).bind fun _ => ih _
    · exact ih records

theorem keeps_findMethod (c : ClassFile) (mode : NamingMode) (remapper : Remapper)
    (canonical : String) : Keeps (findMethod c mode remapper canonical : Step ClassFile Nat) := by
  refine (Keeps.ofExcept c.name).bind fun owner => ?_
  dsimp only
  split
  · exact .throw _
  · exact (Keeps.note _ _).bind fun _ => .pure _

theorem keeps_findAnchor (method : Method) (mode : NamingMode) (remapper : Remapper)
    (callee : String) : Keeps (findAnchor method mode remapper callee : Step ClassFile Nat) := by
  rw [findAnchor]
  split
  · exact .throw _
  · exact (Keeps.note _ _).bind fun _ => .pure _

/-- A patch changes the class last of all, where nothing fails any more. -/
theorem Transformer.fallsBack_patch [Build] (t : Transformer) (mode : NamingMode) :
    FallsBack (t.patch mode) := by
  refine .behind .current fun c => .behind (.ofExcept _) fun owner => ?_
  refine .behind (.note _ _) fun _ => .behind (FieldRecords.keeps_scan c _ _) fun fields => ?_
  refine .behind (keeps_findMethod c mode _ _) fun place => ?_
  refine .behind (.ofExcept _) fun method => .behind (keeps_findAnchor method mode _ _) ?_
  refine fun anchor => .behind (.ofExcept _) fun code => .behind (.within _ _) ?_
  rintro ⟨⟨spliced, maxima⟩, draft⟩ s fault s' h
  exact absurd (show EStateM.Result.ok _ _ = .error fault s' from h) (by simp)

/-! ### Bodies -/

/-- What of an attribute does not depend on positions: its sort, its name, and its bytes where they
are kept as bytes. -/
def CodeAttribute.outline : CodeAttribute → CodeAttribute
  | .lineNumbers nameIndex _ => .lineNumbers nameIndex []
  | .localVariables nameIndex _ => .localVariables nameIndex []
  | .localVariableTypes nameIndex _ => .localVariableTypes nameIndex []
  | .stackMap nameIndex _ => .stackMap nameIndex []
  | .other raw => .other raw

@[simp] theorem CodeAttribute.outline_mapPositions (f : Nat → Nat) (a : CodeAttribute) :
    (a.mapPositions f).outline = a.outline := by
  cases a <;> rfl

@[simp] theorem CodeAttribute.outline_dropLinesFrom (limit : Nat) (a : CodeAttribute) :
    (a.dropLinesFrom limit).outline = a.outline := by
  cases a <;> rfl

/-- Whether the tables of two bodies are the same but for positions: handlers in number, order and
catch type, attributes in number, order, sort, name and opaque bytes. -/
structure Code.KeepsTables (code code' : Code) : Prop where
  handlers : code'.handlers.map Handler.catchType = code.handlers.map Handler.catchType
  attributes : code'.attributes.map CodeAttribute.outline =
    code.attributes.map CodeAttribute.outline

namespace Code.KeepsTables

variable {code code' code'' : Code}

theorem trans (h : code.KeepsTables code') (h' : code'.KeepsTables code'') :
    code.KeepsTables code'' :=
  ⟨h'.handlers.trans h.handlers, h'.attributes.trans h.attributes⟩

theorem mapPositions (f : Nat → Nat) (code : Code) : code.KeepsTables (code.mapPositions f) where
  handlers := by
    show (code.handlers.map _).map _ = _
    rw [List.map_map]
    rfl
  attributes := by
    show (code.attributes.map _).map _ = _
    simp

theorem insert (code : Code) (place : Nat) (sequence : Instructions) :
    code.KeepsTables (code.insert place sequence) :=
  ⟨(mapPositions _ code).handlers, (mapPositions _ code).attributes⟩

theorem remove {method : String} {place : Nat} {i : Instruction}
    (h : code.remove method place = .ok (i, code')) : code.KeepsTables code' := by
  obtain ⟨-, -, rfl⟩ := Code.remove_eq_ok_iff.mp h
  have hmoved := mapPositions (Renumber.removed place) code
  refine ⟨hmoved.handlers, ?_⟩
  rw [← hmoved.attributes]
  show ((code.attributes.map _).map _).map _ = (code.attributes.map _).map _
  simp

end Code.KeepsTables

theorem IsSplice.keepsTables [Build] {method : Method} {anchor : Nat} {injection : Injection}
    {spliced : Spliced} {draft draft' : Draft} {m : HandlerMembers}
    (h : IsSplice method anchor injection spliced draft draft' m) :
    draft.code.KeepsTables draft'.code := by
  obtain ⟨i, hremove⟩ := h.code
  exact (Code.KeepsTables.insert _ _ _).trans (.remove hremove)

/-! ### Methods -/

/-- Whether a method is another one but for the instructions, the sizes and the positions of its
first body. -/
structure Method.ChangesBody (method method' : Method) : Prop where
  head : method'.access = method.access ∧ method'.name = method.name ∧
    method'.nameIndex = method.nameIndex ∧ method'.descriptor = method.descriptor ∧
      method'.descriptorIndex = method.descriptorIndex
  attributes : ∃ front nameIndex code code' back,
    method.attributes = front ++ .code nameIndex code :: back ∧
      method'.attributes = front ++ .code nameIndex code' :: back ∧
      (∀ a ∈ front, a.code? = none) ∧ code.KeepsTables code'

/-- Only the first body among attributes is replaced. -/
theorem MethodAttribute.exists_replaceCode {attributes : List MethodAttribute} {code : Code}
    (h : attributes.findSome? code? = some code) : ∃ front nameIndex back,
      attributes = front ++ .code nameIndex code :: back ∧ (∀ a ∈ front, a.code? = none) ∧
        ∀ body, replaceCode body attributes = front ++ .code nameIndex body :: back := by
  induction attributes with
  | nil => exact absurd h (by simp)
  | cons a rest ih =>
    cases a with
    | code nameIndex body =>
      obtain rfl := Option.some.inj (show some body = some code from h)
      exact ⟨[], nameIndex, rest, rfl, by simp, fun _ => rfl⟩
    | other raw =>
      obtain ⟨front, nameIndex, back, hrest, hfront, hreplace⟩ := ih h
      refine ⟨.other raw :: front, nameIndex, back, by rw [hrest, List.cons_append],
        List.forall_mem_cons.mpr ⟨rfl, hfront⟩, fun body => ?_⟩
      rw [replaceCode, hreplace body, List.cons_append]

theorem Method.changesBody_withCode {method : Method} {code code' : Code}
    (hcode : method.code? = some code) (h : code.KeepsTables code') :
    method.ChangesBody (method.withCode code') := by
  obtain ⟨front, nameIndex, back, hattributes, hfront, hreplace⟩ :=
    MethodAttribute.exists_replaceCode hcode
  exact ⟨⟨rfl, rfl, rfl, rfl, rfl⟩, front, nameIndex, code, code', back, hattributes,
    hreplace code', hfront, h⟩

/-! ### Classes -/

/-- A pool that has grown has at each of its old indices what was there. -/
theorem ConstantPool.Extends.lookup?_eq {pool pool' : ConstantPool} (h : pool.Extends pool')
    {i : UInt16} (hi : i.toNat < pool.count) : pool'.lookup? i = pool.lookup? i := by
  obtain ⟨added, hadded⟩ := h
  rw [ConstantPool.lookup?, ConstantPool.lookup?, ← Array.getElem?_toList, ← Array.getElem?_toList,
    hadded, List.getElem?_append_left (by rwa [Array.length_toList])]

/-- Whether one class is another but for one body and further constants. -/
structure ClassFile.ChangesOnly (c c' : ClassFile) (place : Nat) : Prop where
  versions : c'.minor = c.minor ∧ c'.major = c.major
  access : c'.access = c.access
  names : c'.thisClass = c.thisClass ∧ c'.superClass = c.superClass ∧
    c'.interfaces = c.interfaces
  fields : c'.fields = c.fields
  attributes : c'.attributes = c.attributes
  others : c'.methods.length = c.methods.length ∧
    ∀ n, n ≠ place → c'.methods[n]? = c.methods[n]?
  target : ∃ method method', c.methods[place]? = some method ∧
    c'.methods[place]? = some method' ∧ method.ChangesBody method'
  appended : c.pool.Extends c'.pool
  indices : ∀ i : UInt16, i.toNat < c.pool.count → c'.pool.lookup? i = c.pool.lookup? i
  valid : c.pool.validate = .ok () → c'.pool.validate = .ok ()

/-- A class that takes over another body and a grown pool is changed there only. -/
theorem ClassFile.changesOnly_withCode {c : ClassFile} {place : Nat} {method : Method}
    {code code' : Code} {pool : ConstantPool} (hmethod : c.methods[place]? = some method)
    (hcode : method.code? = some code) (htables : code.KeepsTables code')
    (hext : c.pool.Extends pool) (hvalid : c.pool.validate = .ok () → pool.validate = .ok ()) :
    c.ChangesOnly { c.withCode place code' with pool } place where
  versions := ⟨rfl, rfl⟩
  access := rfl
  names := ⟨rfl, rfl, rfl⟩
  fields := rfl
  attributes := rfl
  others := by
    refine ⟨List.length_modify _ _ _, fun n hn => ?_⟩
    exact List.getElem?_modify_ne _ _ (Ne.symm hn)
  target := by
    refine ⟨method, method.withCode code', hmethod, ?_, Method.changesBody_withCode hcode htables⟩
    show (c.methods.modify place _)[place]? = _
    rw [List.getElem?_modify_eq, hmethod]
    rfl
  appended := hext
  indices := fun _ hi => hext.lookup?_eq hi
  valid := hvalid

namespace Transformer

/-- A patch that succeeds changes only the body of a method and the pool. -/
theorem IsPatch.changesOnly [Build] {t : Transformer} {mode : NamingMode} {report : GraftReport}
    {c c' : ClassFile} {place : Nat} {method : Method} {code : Code} {injection : Injection}
    {spliced : Spliced} {maxima : Maxima} {draft : Draft}
    (h : t.IsPatch mode report c c' place method code injection spliced maxima draft) :
    c.ChangesOnly c' place := by
  obtain ⟨body, m, hspliced, hdraft⟩ := h.exists_splice
  -- Measuring the spliced body leaves its tables and the pool alone.
  have htables : code.KeepsTables draft.code := by
    rw [hdraft]
    exact ⟨hspliced.keepsTables.handlers, hspliced.keepsTables.attributes⟩
  rw [h.result]
  exact ClassFile.changesOnly_withCode h.atPlace h.body htables hspliced.extension hspliced.valid

/-- A patch that fails leaves the class as it was.  One that succeeds changes nothing but the first
body of the first method of the wanted name, and of that neither the order nor the sorts, names and
opaque bytes of its tables; the pool is continued, and stays valid. -/
theorem patch_changesOnly [Build] (t : Transformer) (mode : NamingMode) (c : ClassFile)
    (log : List LogLine) :
    match t.patch mode ⟨c, log⟩ with
    | .error _ s => s.value = c
    | .ok _ s => ∃ owner place, c.name = .ok owner ∧
        (c.methods.findIdx? fun method =>
          t.remapper.methodName owner method.name method.descriptor ==
            mode.resolve t.config.targetMethod) = some place ∧
        c.ChangesOnly s.value place := by
  cases hpatch : t.patch mode ⟨c, log⟩ with
  | error fault s => exact fallsBack_patch t mode hpatch
  | ok report s =>
    obtain ⟨place, method, code, injection, spliced, maxima, draft, h⟩ := patch_spec hpatch
    obtain ⟨_, _, hlocated⟩ := h.located
    obtain ⟨owner, howner, hplace⟩ := exists_findMethod_iff.mp ⟨_, hlocated⟩
    exact ⟨owner, place, howner, hplace, h.changesOnly⟩

attribute [local instance] Build.checked

/-- The class with a plain body is patched, and no more than its body and its pool are changed. -/
theorem changesOnly_plainBody : ∃ report log,
    patch {} .canonical ⟨harvestClass plainBody, []⟩ = .ok report ⟨patchedClass plainBody, log⟩ ∧
    (harvestClass plainBody).ChangesOnly (patchedClass plainBody) 0 := by
  obtain ⟨log, hpatch⟩ := patch_plainBody
  have hpatched := patch_changesOnly {} .canonical (harvestClass plainBody) []
  rw [hpatch] at hpatched
  obtain ⟨owner, place, -, hplace, hchanges⟩ := hpatched
  obtain rfl : place = 0 := (Option.some.inj hplace).symm
  exact ⟨_, log, hpatch, hchanges⟩

end Transformer

end ClassGraft
