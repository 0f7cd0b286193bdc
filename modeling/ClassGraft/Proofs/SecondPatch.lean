/-
Patching what has been patched.

A second patch of a class finds everything as the first one did: the owner, the fields, the method
and the anchor are the same, and the constants that it asks for are there (`ConstantPool.Settles`),
so that it neither runs out of room in the pool nor fails for another reason on its way to the
anchor.  There it fails: behind the anchor stands the store of the first patch, where the `pop`
should be.  Only a method whose locals are used up fails before that, for want of a local.  Both are
inconsistencies (`IsSplice.splice_again`, `Transformer.IsPatch.patch_again`).

What a patch looks at before it changes something does not include frames (`ClassFile.LooksLike`),
so nothing is different if the patched class is written and read in between.
-/
import ClassGraft.Proofs.PoolRequests
import ClassGraft.Proofs.Relocation
import ClassGraft.Proofs.Rereading
import ClassGraft.Proofs.Untouched

namespace ClassGraft

/-! ### Edits of the pool -/

open ConstantPool

theorem settles_memberOf (constant : UInt16 → UInt16 → Constant)
    (owner name descriptor : String) : Settles (memberOf constant owner name descriptor) :=
  (settles_memberIndex constant owner name descriptor).bind fun _ => .pure _

theorem settles_members (injection : Injection) (world player : FieldRecord) :
    Settles (injection.members world player) :=
  (settles_memberOf .fieldRef _ _ _).bind fun _ => (settles_memberOf .fieldRef _ _ _).bind fun _ =>
    (settles_memberOf .fieldRef _ _ _).bind fun _ =>
      (settles_memberOf .methodRef _ _ _).bind fun _ => .pure _

/-! ### Refusals -/

namespace Step

/-- Whether a computation on a state fails with a fault of a kind. -/
def Refuses {ρ α : Type} (kind : FaultKind) (m : EStateM Fault ρ α) (s : ρ) : Prop :=
  ∃ fault s', m s = .error fault s' ∧ fault.kind = kind

namespace Refuses

variable {ρ σ τ α β : Type} {kind : FaultKind}

/-- A compound computation fails where its first part does. -/
theorem first {m : EStateM Fault ρ α} {f : α → EStateM Fault ρ β} {s : ρ}
    (h : Refuses kind m s) : Refuses kind (m >>= f) s := by
  obtain ⟨fault, s', hm, hkind⟩ := h
  exact ⟨fault, s', bind_eq_error_iff.mpr (.inl hm), hkind⟩

/-- Behind a part that succeeds a compound computation fails where its second part does. -/
theorem behind {m : EStateM Fault ρ α} {f : α → EStateM Fault ρ β} {x : α} {s s' : ρ}
    (hm : m s = .ok x s') (h : Refuses kind (f x) s') : Refuses kind (m >>= f) s := by
  obtain ⟨fault, s'', hf, hkind⟩ := h
  exact ⟨fault, s'', bind_eq_error_iff.mpr (.inr ⟨x, s', hm, hf⟩), hkind⟩

/-- It does not matter which state the first part leaves if the second one fails in all of them. -/
theorem after {m : EStateM Fault ρ α} {f : α → EStateM Fault ρ β} {x : α} {s : ρ}
    (hm : ∃ s', m s = .ok x s') (h : ∀ s', Refuses kind (f x) s') : Refuses kind (m >>= f) s := by
  obtain ⟨s', hm⟩ := hm
  exact .behind hm (h s')

theorem ofExcept {e : Except Fault α} {fault : Fault} {s : Traced σ} (he : e = .error fault)
    (hkind : fault.kind = kind) : Refuses kind (Step.ofExcept e : Step σ α) s :=
  ⟨fault, s, ofExcept_eq_error_iff.mpr ⟨he, rfl⟩, hkind⟩

theorem within {m : Step τ α} {value : τ} {s : Traced σ} (h : Refuses kind m ⟨value, s.log⟩) :
    Refuses kind (Step.within value m : Step σ (α × τ)) s := by
  obtain ⟨fault, t, hm, hkind⟩ := h
  exact ⟨fault, _, within_eq_error_iff.mpr ⟨t, hm, rfl⟩, hkind⟩

end Refuses

end Step

open Step

/-! ### The splice -/

/-- A handler call that is put together again names the same members, and changes nothing. -/
theorem IsSplice.injectedSequence_again [Build] {method : Method} {anchor : Nat}
    {injection : Injection} {spliced : Spliced} {draft draft' : Draft} {m : HandlerMembers}
    (h : IsSplice method anchor injection spliced draft draft' m) (slot : UInt16) {t : Traced Draft}
    (ht : t.value.pool = draft'.pool) :
    injectedSequence injection slot .int t = .ok (m.call slot .int) t := by
  obtain ⟨world, player, hworld, hplayer, hworldType, hplayerType, hm⟩ := h.asked
  have hagain := (settles_members injection world player).again hm (Extends.refl draft'.pool)
  rw [← ht] at hagain
  exact injectedSequence_eq_ok_iff.mpr ⟨world, player, hworld, hplayer, hworldType, hplayerType, m,
    t.value.pool, hagain, rfl, rfl⟩

/-- Behind the anchor of a spliced body the captured result is stored. -/
theorem IsSplice.stored [Build] {method : Method} {anchor : Nat} {injection : Injection}
    {spliced : Spliced} {draft draft' : Draft} {m : HandlerMembers}
    (h : IsSplice method anchor injection spliced draft draft' m) :
    draft'.code.instructions[anchor + 1]? = some (.storeLocal spliced.slot .int) := by
  obtain ⟨discard, -, hspliced⟩ := h.isSpliced
  exact hspliced.put 0 (by rw [HandlerMembers.length_call]; omega)

theorem IsSplice.anchored [Build] {method : Method} {anchor : Nat} {injection : Injection}
    {spliced : Spliced} {draft draft' : Draft} {m : HandlerMembers}
    (h : IsSplice method anchor injection spliced draft draft' m) : ∃ callee dispatch d,
      draft'.code.instructions[anchor]? = some (.invoke callee dispatch) ∧
        MethodDescriptor.parse callee.descriptor = .ok d ∧ d.resultKind = some .int := by
  obtain ⟨callee, dispatch, d, hanchor, hd, hresult⟩ := h.callee
  obtain ⟨discard, -, hspliced⟩ := h.isSpliced
  have hmoved := hspliced.moved anchor (Nat.ne_of_lt hspliced.lt)
  rw [Renumber.spliced_of_le hspliced.lt le_rfl, hanchor] at hmoved
  exact ⟨callee, dispatch, d, hmoved, hd, hresult⟩

/-- Nothing is found to take out where a store stands behind the call that has been put in. -/
theorem discardBehind_of_store {method : String} {code : Code} {anchor : Nat} {slot : UInt16}
    (hstored : code.instructions[anchor + 1]? = some (.storeLocal slot .int))
    {sequence : Instructions} (hlength : sequence.length = 11) :
    discardBehind method (anchor + 12)
        ((code.insert (anchor + 1) sequence).instructions.drop (anchor + 12)) =
      .error (.inconsistent method (anchor + 12)
        (.notAPop (Instruction.storeLocal slot .int).text)) := by
  obtain ⟨hlt, -⟩ := List.getElem?_eq_some_iff.mp hstored
  have hbehind : (Instructions.insert code.instructions (anchor + 1) sequence)[Renumber.inserted
      (anchor + 1) sequence.length (anchor + 1)]? = _ :=
    Instructions.getElem?_insert (Nat.le_of_lt hlt) (anchor + 1)
  rw [hlength, Renumber.inserted, if_pos le_rfl, hstored] at hbehind
  obtain ⟨hlt', hstore⟩ := List.getElem?_eq_some_iff.mp hbehind
  show discardBehind method (anchor + 12)
    ((Instructions.insert code.instructions (anchor + 1) sequence).drop (anchor + 12)) = _
  rw [List.drop_eq_getElem_cons hlt', hstore]
  rfl

/-- Two methods between which a splice does not tell. -/
structure Method.Resembles (method method' : Method) : Prop where
  access : method'.access = method.access
  name : method'.name = method.name
  descriptor : method'.descriptor = method.descriptor

/-- A splice into a body that has been spliced is refused: there may be no local left, and if there
is one, the `pop` is gone. -/
theorem IsSplice.splice_again [Build] {method method' : Method} {anchor : Nat}
    {injection : Injection} {spliced : Spliced} {draft draft' : Draft} {m : HandlerMembers}
    (h : IsSplice method anchor injection spliced draft draft' m)
    (hmethod : method.Resembles method') {t : Traced Draft} (hpool : t.value.pool = draft'.pool)
    (hcode : t.value.code.instructions = draft'.code.instructions) :
    Refuses .inconsistent (splice method' anchor injection) t := by
  obtain ⟨callee, dispatch, d, hanchor, hd, hresult⟩ := h.anchored
  have hcallee : anchorCallee method' t.value.code anchor = .ok (callee, .int) :=
    anchorCallee_eq_ok_iff.mpr ⟨rfl, dispatch, d, by rw [hcode, hanchor], hd, hresult⟩
  have hcoordinates : checkCoordinates method' anchor = .ok () := by
    rw [← h.coordinates, checkCoordinates, checkCoordinates, Method.isStatic, Method.isStatic,
      hmethod.access, hmethod.name, hmethod.descriptor]
  have hslots : method'.parameterSlots = method.parameterSlots := by
    rw [Method.parameterSlots, Method.parameterSlots, Method.isStatic, Method.isStatic,
      hmethod.access, hmethod.descriptor]
  obtain ⟨slots, hparameters, -⟩ := Bytes.bind_eq_ok_iff.mp h.slot
  -- The descriptor has been read before, so there may only be the want of a local.
  have hfree : FailsWith [.inconsistent] (freeSlot method' t.value.code anchor .int) :=
    (FailsBy.of_exists ⟨slots, hslots.trans hparameters⟩).bind fun _ =>
      .ite (.ok _ _) (.error List.mem_cons_self)
  refine .behind (Step.current_eq_ok_iff.mpr ⟨rfl, rfl⟩) ?_
  refine .behind (Step.ofExcept_eq_ok_iff.mpr ⟨hcallee, rfl⟩) ?_
  refine .behind (Step.ofExcept_eq_ok_iff.mpr ⟨hcoordinates, rfl⟩) ?_
  cases hslot : freeSlot method' t.value.code anchor .int with
  | error fault =>
    exact .first (.ofExcept rfl (List.mem_singleton.mp (hfree fault hslot)))
  | ok slot =>
    refine .behind (Step.ofExcept_eq_ok_iff.mpr ⟨rfl, rfl⟩) ?_
    refine .behind (x := ()) (Step.note_eq_ok_iff.mpr rfl) ?_
    refine .behind (h.injectedSequence_again slot hpool) ?_
    refine .behind (x := ()) (Draft.setCode_eq_ok_iff.mpr rfl) ?_
    have hstored := h.stored
    rw [← hcode] at hstored
    exact .first (.ofExcept (discardBehind_of_store hstored (m.length_call slot .int)) rfl)

/-! ### What a patch looks at -/

/-- What a graft looks at of a method. -/
def Method.look (method : Method) : Access × String × String × Option Instructions :=
  (method.access, method.name, method.descriptor, method.code?.map Code.instructions)

theorem Method.code?_widened (method : Method) :
    method.widened.code? = method.code?.map Code.widened := by
  show (method.attributes.map MethodAttribute.widened).findSome? MethodAttribute.code? =
    (method.attributes.findSome? MethodAttribute.code?).map Code.widened
  rw [List.findSome?_map]
  -- The first attribute with a body is the same one.
  induction method.attributes with
  | nil => rfl
  | cons a rest ih =>
    cases a with
    | code nameIndex body => rfl
    | other raw => exact ih

@[simp] theorem Method.look_widened (method : Method) : method.widened.look = method.look := by
  rw [look, look, Method.code?_widened, Option.map_map]
  rfl

/-- Whether two classes differ in nothing that a graft looks at. -/
structure ClassFile.LooksLike (c d : ClassFile) : Prop where
  pool : d.pool = c.pool
  thisClass : d.thisClass = c.thisClass
  fields : d.fields = c.fields
  methods : d.methods.map Method.look = c.methods.map Method.look

theorem ClassFile.LooksLike.refl (c : ClassFile) : c.LooksLike c :=
  ⟨rfl, rfl, rfl, rfl⟩

theorem ClassFile.looksLike_widened (c : ClassFile) : c.LooksLike c.widened := by
  refine ⟨rfl, rfl, rfl, ?_⟩
  show (c.methods.map Method.widened).map Method.look = _
  rw [List.map_map]
  exact List.map_congr_left fun method _ => method.look_widened

/-- What does not depend on a body is the same for all methods when one is given another body. -/
theorem ClassFile.map_methods_withCode {α : Type} {f : Method → α} {code : Code}
    (hf : ∀ method, f (method.withCode code) = f method) (c : ClassFile) (place : Nat) :
    (c.withCode place code).methods.map f = c.methods.map f := by
  refine List.ext_getElem? fun n => ?_
  show ((c.methods.modify place _).map f)[n]? = _
  rw [List.getElem?_map, List.getElem?_map]
  by_cases hn : place = n
  · rw [← hn, List.getElem?_modify_eq]
    cases c.methods[place]? with
    | none => rfl
    | some method => exact congrArg some (hf method)
  · rw [List.getElem?_modify_ne _ _ hn]

/-! ### The anchor -/

@[simp] theorem Instruction.callsName_mapTargets (remapper : Remapper) (expected : String)
    (f : Nat → Nat) (i : Instruction) :
    (i.mapTargets f).callsName remapper expected = i.callsName remapper expected := by
  cases i <;> rfl

/-- The first place of a test, told by the outcomes of the test. -/
theorem findIdx?_eq_some_iff_map {α : Type} {list : List α} {test : α → Bool} {n : Nat} :
    list.findIdx? test = some n ↔
      list[n]?.map test = some true ∧ ∀ p < n, list[p]?.map test = some false := by
  rw [List.findIdx?_eq_some_iff_getElem]
  constructor
  · rintro ⟨hlt, hn, hbefore⟩
    refine ⟨by rw [List.getElem?_eq_getElem hlt, Option.map_some, hn], fun p hp => ?_⟩
    rw [List.getElem?_eq_getElem (hp.trans hlt), Option.map_some]
    simpa using hbefore p hp
  · rintro ⟨hn, hbefore⟩
    obtain ⟨x, hx, htest⟩ := Option.map_eq_some_iff.mp hn
    obtain ⟨hlt, rfl⟩ := List.getElem?_eq_some_iff.mp hx
    refine ⟨hlt, htest, fun p hp => ?_⟩
    have hfails := hbefore p hp
    rw [List.getElem?_eq_getElem (hp.trans hlt)] at hfails
    simpa using hfails

/-- The first call of the wanted callee is the first one in the spliced body. -/
theorem Code.IsSpliced.findIdx?_eq {code code' : Code} {anchor discard : Nat}
    {call : Instructions} (h : code.IsSpliced code' anchor discard call) {remapper : Remapper}
    {expected : String}
    (hanchor : code.instructions.findIdx? (Instruction.callsName remapper expected) =
      some anchor) :
    code'.instructions.findIdx? (Instruction.callsName remapper expected) = some anchor := by
  -- Up to the anchor nothing has moved.
  have hkept : ∀ p ≤ anchor, code'.instructions[p]?.map (Instruction.callsName remapper expected) =
      code.instructions[p]?.map (Instruction.callsName remapper expected) := by
    intro p hp
    have hmoved := h.moved p (Nat.ne_of_lt (hp.trans_lt h.lt))
    rw [Renumber.spliced_of_le h.lt hp] at hmoved
    rw [hmoved, Option.map_map]
    congr 1
    funext i
    exact Instruction.callsName_mapTargets remapper expected _ i
  obtain ⟨hcalls, hbefore⟩ := findIdx?_eq_some_iff_map.mp hanchor
  refine findIdx?_eq_some_iff_map.mpr ⟨?_, fun p hp => ?_⟩
  · rw [hkept anchor le_rfl, hcalls]
  · rw [hkept p (Nat.le_of_lt hp), hbefore p hp]

/-! ### The patch -/

namespace Transformer.IsPatch

variable {t : Transformer} {mode : NamingMode} {report : GraftReport} {c c' d : ClassFile}
  {place : Nat} {method : Method} {code : Code} {injection : Injection} {spliced : Spliced}
  {maxima : Maxima} {draft : Draft}

/-- The owner is the same in the grown pool. -/
theorem name_again [Build]
    (h : t.IsPatch mode report c c' place method code injection spliced maxima draft)
    (hd : c'.LooksLike d) : d.name = .ok injection.owner := by
  obtain ⟨body, m, hspliced, -⟩ := h.exists_splice
  have hpool : d.pool = draft.pool := by rw [hd.pool, h.result]
  have hthis : d.thisClass = c.thisClass := by
    rw [hd.thisClass, h.result]
    rfl
  rw [ClassFile.name, hpool, hthis]
  exact hspliced.extension.className h.asked.2.2

/-- The fields have not changed. -/
theorem scan_again [Build]
    (h : t.IsPatch mode report c c' place method code injection spliced maxima draft)
    (hd : c'.LooksLike d) (s : Traced ClassFile) : ∃ s', FieldRecords.scan d t.remapper
      [mode.resolve t.config.worldField, mode.resolve t.config.playerField] s =
        .ok injection.fields s' := by
  obtain ⟨_, _, hscanned⟩ := h.scanned
  simp only [FieldRecords.scan, Step.bind_eq_ok_iff, Step.ofExcept_eq_ok_iff] at hscanned ⊢
  obtain ⟨owner, r, ⟨hname, rfl⟩, hscanned⟩ := hscanned
  obtain rfl := Except.ok.inj (h.asked.2.2.symm.trans hname)
  have hfields : d.fields = c.fields := by
    rw [hd.fields, h.result]
    rfl
  obtain ⟨s', hs'⟩ := FieldRecords.scanFields_again hscanned s
  rw [hfields]
  exact ⟨s', _, s, ⟨h.name_again hd, rfl⟩, hs'⟩

/-- The methods are of the same names. -/
theorem findMethod_again [Build]
    (h : t.IsPatch mode report c c' place method code injection spliced maxima draft)
    (hd : c'.LooksLike d) (s : Traced ClassFile) :
    ∃ s', findMethod d mode t.remapper t.config.targetMethod s = .ok place s' := by
  obtain ⟨_, _, hlocated⟩ := h.located
  obtain ⟨owner, hname, hplace⟩ := exists_findMethod_iff.mp ⟨_, hlocated⟩
  obtain rfl := Except.ok.inj (h.asked.2.2.symm.trans hname)
  refine exists_findMethod_iff.mpr ⟨_, h.name_again hd, ?_⟩
  -- Whether a method is wanted is seen by its name and its descriptor.
  have hkeys : d.methods.map (fun m => (m.name, m.descriptor)) =
      c.methods.map fun m => (m.name, m.descriptor) := by
    have hlooks := congrArg (List.map fun x => (x.2.1, x.2.2.1)) hd.methods
    rw [List.map_map, List.map_map] at hlooks
    refine hlooks.trans ?_
    rw [h.result]
    exact ClassFile.map_methods_withCode (fun _ => rfl) c place
  have hfound := congrArg (List.findIdx? fun x =>
    t.remapper.methodName injection.owner x.1 x.2 == mode.resolve t.config.targetMethod) hkeys
  rw [List.findIdx?_map, List.findIdx?_map] at hfound
  exact hfound.trans hplace

/-- At the place of the method there is one that a splice does not tell from it, with the spliced
instructions. -/
theorem method_again [Build]
    (h : t.IsPatch mode report c c' place method code injection spliced maxima draft)
    (hd : c'.LooksLike d) : ∃ method' code', d.methods[place]? = some method' ∧
      method.Resembles method' ∧ method'.code? = some code' ∧
        code'.instructions = draft.code.instructions := by
  have hlook := congrArg (fun looks => looks[place]?) hd.methods
  rw [List.getElem?_map, List.getElem?_map, h.getElem?_methods, Option.map_some,
    Option.map_eq_some_iff] at hlook
  obtain ⟨method', hmethod', hlook⟩ := hlook
  simp only [Method.look, Prod.mk.injEq, Method.code?_withCode h.body, Option.map_some,
    Option.map_eq_some_iff] at hlook
  obtain ⟨haccess, hname, hdescriptor, code', hcode', hinstructions⟩ := hlook
  exact ⟨method', code', hmethod', ⟨haccess, hname, hdescriptor⟩, hcode', hinstructions⟩

/-- The first call of the callee has not moved. -/
theorem findAnchor_again [Build]
    (h : t.IsPatch mode report c c' place method code injection spliced maxima draft)
    {method' : Method} {code' : Code} (hcode' : method'.code? = some code')
    (hinstructions : code'.instructions = draft.code.instructions) (s : Traced ClassFile) :
    ∃ s', findAnchor method' mode t.remapper t.config.anchorCallee s = .ok report.anchor s' := by
  obtain ⟨body, m, hspliced, hdraft⟩ := h.exists_splice
  obtain ⟨discard, -, hmoved⟩ := hspliced.isSpliced
  obtain ⟨_, _, hanchored⟩ := h.anchored
  obtain ⟨_, hbody, hanchored⟩ := exists_findAnchor_iff.mp ⟨_, hanchored⟩
  obtain rfl := Option.some.inj (h.body.symm.trans hbody)
  refine exists_findAnchor_iff.mpr ⟨code', hcode', ?_⟩
  rw [hinstructions, hdraft]
  exact hmoved.findIdx?_eq hanchored

/-- A second patch of what looks like a patched class is refused. -/
theorem patch_again [Build]
    (h : t.IsPatch mode report c c' place method code injection spliced maxima draft)
    (hd : c'.LooksLike d) (log : List LogLine) :
    Refuses .inconsistent (t.patch mode) ⟨d, log⟩ := by
  obtain ⟨body, m, hspliced, hdraft⟩ := h.exists_splice
  obtain ⟨method', code', hmethod', hresembles, hcode', hinstructions⟩ := h.method_again hd
  have hpool : d.pool = draft.pool := by rw [hd.pool, h.result]
  have hbody : code'.instructions = body.instructions := by rw [hinstructions, hdraft]
  have hinjection : injection = ⟨t.config, mode, injection.owner, injection.fields⟩ := by
    rw [← h.asked.1, ← h.asked.2.1]
  -- All is found again, up to the splice.
  refine .behind (Step.current_eq_ok_iff.mpr ⟨rfl, rfl⟩) ?_
  refine .behind (Step.ofExcept_eq_ok_iff.mpr ⟨h.name_again hd, rfl⟩) ?_
  refine .behind (x := ()) (Step.note_eq_ok_iff.mpr rfl) ?_
  refine .after (h.scan_again hd _) fun _ => .after (h.findMethod_again hd _) fun _ => ?_
  refine .behind (Step.ofExcept_eq_ok_iff.mpr ⟨elim_eq_ok_iff.mpr hmethod', rfl⟩) ?_
  refine .after (h.findAnchor_again hcode' hinstructions _) fun _ => ?_
  refine .behind (Step.ofExcept_eq_ok_iff.mpr ⟨elim_eq_ok_iff.mpr hcode', rfl⟩) ?_
  refine .first (.within (.first ?_))
  rw [← hinjection]
  exact hspliced.splice_again hresembles hpool hbody

end Transformer.IsPatch

namespace Transformer

/-- The bytes that a patch gives are refused by another one. -/
theorem patchBytes_again [Build] {σ : Type} {t : Transformer} {mode : NamingMode}
    {bytes patched : Bytes}
    {s s' : Traced σ} (h : t.patchBytes mode bytes s = .ok patched s') (r : Traced σ) :
    Refuses .inconsistent (t.patchBytes mode patched) r := by
  simp only [patchBytes, Step.bind_eq_ok_iff, Step.ofExcept_eq_ok_iff] at h
  obtain ⟨c, _, ⟨hread, rfl⟩, ⟨report, c'⟩, s₁, hpatch, hwritten, rfl⟩ := h
  obtain ⟨hpatch, -⟩ := Step.within_eq_ok_iff.mp hpatch
  obtain ⟨place, method, code, injection, spliced, maxima, draft, h⟩ := patch_spec hpatch
  -- Read again, the patched class has its frames in the forms in which they have been written.
  have hproper := (ClassFile.proper_of_ofBytes hread).1.patch hpatch
  have hreread := ClassFile.ofBytes_of_toBytes hproper hwritten
  refine .behind (Step.ofExcept_eq_ok_iff.mpr ⟨hreread, rfl⟩) (.first (.within ?_))
  exact h.patch_again c'.looksLike_widened r.log

/-- No handler call is put in twice: a patch of what a patch has given, as bytes or as a class, is
refused as inconsistent, and leaves the class as it is. -/
theorem patch_once [Build] :
    (∀ (σ : Type) (bytes patched : Bytes) (mode : NamingMode) (s s' r : Traced σ),
      patchClass bytes mode s = .ok patched s' → ∃ fault r',
        patchClass patched mode r = .error fault r' ∧ fault.kind = .inconsistent) ∧
    ∀ (t : Transformer) (mode : NamingMode) (c c' : ClassFile) (report : GraftReport)
      (log log' log₁ : List LogLine), t.patch mode ⟨c, log⟩ = .ok report ⟨c', log'⟩ →
        ∃ fault log₂, t.patch mode ⟨c', log₁⟩ = .error fault ⟨c', log₂⟩ ∧
          fault.kind = .inconsistent := by
  refine ⟨fun σ bytes patched mode s s' r h => patchBytes_again h r, ?_⟩
  intro t mode c c' report log log' log₁ h
  obtain ⟨place, method, code, injection, spliced, maxima, draft, h⟩ := patch_spec h
  obtain ⟨fault, ⟨left, log₂⟩, hpatch, hkind⟩ := h.patch_again (.refl c') log₁
  obtain rfl : left = c' := fallsBack_patch t mode hpatch
  exact ⟨fault, log₂, hpatch, hkind⟩

attribute [local instance] Build.checked

/-- The class with a plain body as bytes. -/
def harvestBytes : Bytes := ((harvestClass plainBody).toBytes.toOption).getD []

/-- The class with a plain body is patched once, as bytes and as a class. -/
theorem patch_once_plainBody :
    (∃ patched s', patchClass harvestBytes .canonical ⟨(), []⟩ = .ok patched s' ∧
      ∃ fault r', patchClass patched .canonical ⟨(), []⟩ = .error fault r' ∧
        fault.kind = .inconsistent) ∧
    ∃ report log, patch {} .canonical ⟨harvestClass plainBody, []⟩ =
        .ok report ⟨patchedClass plainBody, log⟩ ∧
      ∃ fault log₂, patch {} .canonical ⟨patchedClass plainBody, []⟩ =
        .error fault ⟨patchedClass plainBody, log₂⟩ ∧ fault.kind = .inconsistent := by
  constructor
  · have hok : (Step.outcome (patchClass harvestBytes .canonical) ()).1.isOk = true := by
      decide +kernel
    rw [Step.outcome] at hok
    cases hpatch : patchClass harvestBytes .canonical ⟨(), []⟩ with
    | ok patched s' =>
      exact ⟨patched, s', rfl, patch_once.1 Unit harvestBytes patched .canonical _ s' _ hpatch⟩
    | error fault s' =>
      rw [hpatch] at hok
      exact absurd hok (by simp [Except.isOk, Except.toBool])
  · obtain ⟨log, hpatch⟩ := patch_plainBody
    exact ⟨_, log, hpatch, patch_once.2 {} .canonical _ _ _ _ _ _ hpatch⟩

end Transformer

end ClassGraft
