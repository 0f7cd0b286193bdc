/-
The fields that a handler call reads.

An instruction that accesses a field names it by owner, name and descriptor
(`MemberRef.LeadsTo`), and says by its opcode whether the field is static.  It links where the field
that it leads to is of that kind (`Instruction.LinksTo`).  Both fields that a handler call reads are
the first ones in the class whose run-time names are wanted, and a read leads to that very field
(`ClassFile.declared?_of_runtimeField?`), so it links exactly if the field is not static
(`Transformer.field_reads_link_iff`).  No part of a patch asks whether it is
(`Transformer.static_world_unlinked`).
-/
import ClassGraft.Proofs.PatchedDepths
import ClassGraft.Proofs.PooledTexts

namespace ClassGraft

/-! ### Linking -/

namespace ClassFile

/-- The field that the class declares under a name and a descriptor. -/
def declared? (c : ClassFile) (name descriptor : String) : Option Field :=
  c.fields.find? fun field => field.name == name && field.descriptor == descriptor

/-- The first field of a run-time name. -/
def runtimeField? (c : ClassFile) (remapper : Remapper) (owner name : String) : Option Field :=
  c.fields.find? fun field => remapper.fieldName owner field.name field.descriptor == name

/-- Fields with one name and one descriptor have one run-time name, so none of them comes before the
first field of that run-time name. -/
theorem declared?_of_runtimeField? {c : ClassFile} {remapper : Remapper} {owner name : String}
    {field : Field} (h : c.runtimeField? remapper owner name = some field) :
    c.declared? field.name field.descriptor = some field := by
  obtain ⟨hname, before, behind, hfields, hbefore⟩ := List.find?_eq_some_iff_append.mp h
  refine List.find?_eq_some_iff_append.mpr ⟨by simp, before, behind, hfields, ?_⟩
  intro field' hmem
  by_contra hsame
  obtain ⟨hname', hdescriptor'⟩ : field'.name = field.name ∧ field'.descriptor = field.descriptor :=
    by simpa using hsame
  have hother := hbefore field' hmem
  rw [hname', hdescriptor', hname] at hother
  exact absurd hother (by simp)

end ClassFile

/-- Whether an index stands for a field in a pool. -/
def ConstantPool.HoldsField (pool : ConstantPool) (index : UInt16) : Prop :=
  ∃ owner nat, pool.lookup? index = some (.fieldRef owner nat)

/-- Whether a member is a field that the class itself declares. -/
structure MemberRef.LeadsTo (m : MemberRef) (c : ClassFile) (field : Field) : Prop where
  constant : c.pool.HoldsField m.index
  resolves : c.pool.memberRef m.index = .ok m
  owner : c.name = .ok m.owner
  declared : c.declared? m.name m.descriptor = some field

/-- Whether an instruction accesses a field that the class declares, as one that is static or as one
that is not, whichever it is. -/
def Instruction.LinksTo (c : ClassFile) (field : Field) : Instruction → Prop
  | .loadField m isStatic | .storeField m isStatic =>
    m.LeadsTo c field ∧ field.access.isStatic = isStatic
  | _ => False

/-! ### The references of a handler call -/

section Members

variable {pool pool' pool'' : ConstantPool} {constant : UInt16 → UInt16 → Constant}
  {owner name descriptor : String} {m : MemberRef}

/-- A member that has been asked for is behind its index, where slots can be counted. -/
theorem lookup?_of_memberOf (hconstant : ConstantPool.MakesMembers constant)
    (h : memberOf constant owner name descriptor pool = .ok m pool')
    (hext : pool'.Extends pool'') (hcount : pool''.count ≤ ConstantPool.maxSlots) :
    ∃ owner nat, pool''.lookup? m.index = some (constant owner nat) := by
  obtain ⟨hindex, -⟩ := memberOf_eq_ok_iff.mp h
  obtain ⟨⟨owner, nat, hlookup⟩, -⟩ :=
    ConstantPool.memberRef_of_memberIndex hconstant hindex (hext.count_le.trans hcount)
  exact ⟨owner, nat, hext.lookup? hlookup⟩

end Members

/-- Both reads of a handler call refer to fields. -/
theorem Injection.holdsField_of_members {injection : Injection} {world player : FieldRecord}
    {pool pool' : ConstantPool} {m : HandlerMembers}
    (h : injection.members world player pool = .ok m pool')
    (hcount : pool'.count ≤ ConstantPool.maxSlots) :
    pool'.HoldsField m.world.index ∧ pool'.HoldsField m.player.index := by
  obtain ⟨pool₁, pool₂, pool₃, -, hworld, hplayer, hhandler⟩ := exists_of_members h
  have hext₃ := (confined_memberOf _ _ _ _).appends hhandler
  have hext₂ := ((confined_memberOf _ _ _ _).appends hplayer).trans hext₃
  exact ⟨lookup?_of_memberOf ConstantPool.makesMembers_fieldRef hworld hext₂ hcount,
    lookup?_of_memberOf ConstantPool.makesMembers_fieldRef hplayer hext₃ hcount⟩

/-- The places of the reads in a handler call, with the canonical names of the fields. -/
def GraftConfig.fieldReads (config : GraftConfig) : List (Nat × String) :=
  [(3, config.worldField), (5, config.playerField)]

/-- A handler call reads fields that are not static at these places only. -/
theorem HandlerMembers.mem_of_loadField {m : HandlerMembers} {slot : UInt16} {kind : ValueKind}
    {k : Nat} {field : MemberRef} (h : (m.call slot kind)[k]? = some (.loadField field false))
    (config : GraftConfig) : k ∈ config.fieldReads.map Prod.fst := by
  have hlt : k < 11 := (List.getElem?_eq_some_iff.mp h).1
  simp only [GraftConfig.fieldReads, List.map_cons, List.map_nil, List.mem_cons, List.not_mem_nil,
    or_false]
  interval_cases k
  all_goals simp_all [call, handlerCall]

/-- Whether a member leads to the first field of the class that has a run-time name, which holds
references. -/
structure MemberRef.LeadsToNamed (m : MemberRef) (c : ClassFile) (remapper : Remapper)
    (name : String) (field : Field) : Prop extends m.LeadsTo c field where
  first : c.runtimeField? remapper m.owner name = some field
  reference : ∃ type, FieldType.parse field.descriptor = .ok type ∧ type.kind = .reference

/-- A member that names a field as a scan has found it leads to that field, in any class of the same
name that declares the same fields. -/
theorem MemberRef.exists_leadsToNamed {σ : Type} {c c' : ClassFile} {remapper : Remapper}
    {wanted : List String} {records : FieldRecords} {s s' : Traced σ} {owner name : String}
    {record : FieldRecord} {m : MemberRef}
    (hscan : FieldRecords.scan c remapper wanted s = .ok records s')
    (howner : c.name = .ok owner) (hname : name ∈ wanted) (hrecord : records.find name = .ok record)
    (hcheck : checkReference record = .ok ())
    (hm : m = ⟨m.index, owner, record.name, record.descriptor⟩)
    (howner' : c'.name = .ok owner) (hfields : c'.fields = c.fields)
    (hconstant : c'.pool.HoldsField m.index) (hresolves : c'.pool.memberRef m.index = .ok m) :
    ∃ field, m.LeadsToNamed c' remapper name field := by
  obtain ⟨field, hfield, rfl⟩ := FieldRecords.find_of_scan hscan howner hname hrecord
  have hfirst : c'.runtimeField? remapper owner name = some field := by
    rw [ClassFile.runtimeField?, hfields]
    exact hfield
  obtain ⟨index, _, _, _⟩ := m
  obtain ⟨-, rfl, rfl, rfl⟩ := MemberRef.mk.inj hm
  exact ⟨field, ⟨hconstant, hresolves, howner', ClassFile.declared?_of_runtimeField? hfirst⟩,
    hfirst, checkReference_eq_ok_iff.mp hcheck⟩

/-- A read that leads to a field links to it exactly if the field is not static. -/
theorem MemberRef.LeadsTo.linksTo_iff {m : MemberRef} {c : ClassFile} {field : Field}
    (h : m.LeadsTo c field) :
    (Instruction.loadField m false).LinksTo c field ↔ field.access.isStatic = false :=
  and_iff_right h

namespace Transformer

/-- A patch leaves the name and the fields of the class as they are. -/
theorem IsPatch.keeps_fields [Build] {t : Transformer} {mode : NamingMode} {report : GraftReport}
    {c c' : ClassFile} {place : Nat} {method : Method} {code : Code} {injection : Injection}
    {spliced : Spliced} {maxima : Maxima} {draft : Draft}
    (h : t.IsPatch mode report c c' place method code injection spliced maxima draft) :
    c'.name = .ok injection.owner ∧ c'.fields = c.fields := by
  obtain ⟨-, -, howner⟩ := h.asked
  obtain ⟨body, m, hspliced, -⟩ := h.exists_splice
  rw [h.result]
  exact ⟨hspliced.extension.className howner, rfl⟩

/-- The members for world and player lead to the fields with the wanted run-time names. -/
theorem IsPatch.exists_leadsToNamed [Build] {t : Transformer} {mode : NamingMode}
    {report : GraftReport}
    {c c' : ClassFile} {place : Nat} {method : Method} {code body : Code} {injection : Injection}
    {spliced : Spliced} {maxima : Maxima} {draft : Draft} {m : HandlerMembers}
    (h : t.IsPatch mode report c c' place method code injection spliced maxima draft)
    (hspliced : IsSplice method report.anchor injection spliced ⟨code, c.pool⟩ ⟨body, draft.pool⟩ m)
    (hpool : c.pool.count ≤ ConstantPool.maxSlots) :
    (∃ field,
      m.world.LeadsToNamed c' t.remapper (mode.resolve t.config.worldField) field) ∧
    ∃ field, m.player.LeadsToNamed c' t.remapper (mode.resolve t.config.playerField) field := by
  obtain ⟨hconfig, hmode, howner⟩ := h.asked
  obtain ⟨howner', hfields⟩ := h.keeps_fields
  obtain ⟨_, _, hscan⟩ := h.scanned
  obtain ⟨hcount, hresolve⟩ := hspliced.resolve hpool
  obtain ⟨_, _, -, -, -, -, hmembers⟩ := hspliced.asked
  obtain ⟨hworldHeld, hplayerHeld⟩ := Injection.holdsField_of_members hmembers hcount
  obtain ⟨world, hworld, hworldType, hworldRef⟩ := hspliced.members.world
  obtain ⟨player, hplayer, hplayerType, hplayerRef⟩ := hspliced.members.player
  rw [hconfig, hmode] at hworld hplayer
  have hpool' : c'.pool = draft.pool := by rw [h.result]
  rw [← hpool'] at hworldHeld hplayerHeld hresolve
  exact ⟨MemberRef.exists_leadsToNamed hscan howner (by simp) hworld hworldType hworldRef howner'
      hfields hworldHeld hresolve.world,
    MemberRef.exists_leadsToNamed hscan howner (by simp) hplayer hplayerType hplayerRef howner'
      hfields hplayerHeld hresolve.player⟩

/-- The only reads of fields that are not static in a handler call are those of world and player.
Each refers to the class itself and to the first field that has the wanted run-time name, by the
name and the descriptor under which the class declares it.  The field holds references, and the read
links to it exactly if it is not static. -/
theorem field_reads_link_iff [Build] {t : Transformer} {mode : NamingMode} {report : GraftReport}
    {c c' : ClassFile} {log log' : List LogLine} (hpool : c.pool.count ≤ ConstantPool.maxSlots)
    (h : t.patch mode ⟨c, log⟩ = .ok report ⟨c', log'⟩) :
    c.name = .ok report.className ∧ c'.name = .ok report.className ∧ c'.fields = c.fields ∧
    ∃ place code', (∃ s s' : Traced ClassFile,
        findMethod c mode t.remapper t.config.targetMethod s = .ok place s') ∧
      c'.methods[place]?.bind Method.code? = some code' ∧
      (∀ k < report.inserted, ∀ m,
        code'.instructions[report.anchor + 1 + k]? = some (.loadField m false) →
          k ∈ t.config.fieldReads.map Prod.fst) ∧
      ∀ read ∈ t.config.fieldReads, ∃ m field,
        code'.instructions[report.anchor + 1 + read.1]? = some (.loadField m false) ∧
        m.LeadsToNamed c' t.remapper (mode.resolve read.2) field ∧
        ((Instruction.loadField m false).LinksTo c' field ↔ field.access.isStatic = false) := by
  obtain ⟨place, method, code, injection, spliced, maxima, draft, hpatch⟩ := patch_spec h
  obtain ⟨-, -, howner⟩ := hpatch.asked
  obtain ⟨howner', hfields⟩ := hpatch.keeps_fields
  obtain ⟨body, members, hspliced, hdraft⟩ := hpatch.exists_splice
  obtain ⟨discard, -, hbody⟩ := hspliced.isSpliced
  obtain ⟨⟨world, hworld⟩, player, hplayer⟩ := hpatch.exists_leadsToNamed hspliced hpool
  have hclass : report.className = injection.owner := by rw [hpatch.reported]
  have hput : ∀ k < 11, draft.code.instructions[report.anchor + 1 + k]? =
      (members.call spliced.slot .int)[k]? := by
    rw [hdraft]
    exact hbody.put
  rw [hclass]
  refine ⟨howner, howner', hfields, place, draft.code, hpatch.located, hpatch.code?_eq,
    ?_, ?_⟩
  · intro k hk m hread
    rw [hput k (hpatch.inserted_eq ▸ hk)] at hread
    exact HandlerMembers.mem_of_loadField hread t.config
  · simp only [GraftConfig.fieldReads, List.forall_mem_cons, List.not_mem_nil, false_implies,
      implies_true, and_true]
    exact ⟨⟨members.world, world, hput 3 (by decide), hworld, hworld.linksTo_iff⟩,
      members.player, player, hput 5 (by decide), hplayer, hplayer.linksTo_iff⟩

attribute [local instance] Build.checked

/-- In a class whose fields are not static both reads link, the first one to the world. -/
theorem field_reads_link_plainBody : ∃ report log code' m field,
    (harvestClass plainBody).pool.count ≤ ConstantPool.maxSlots ∧
    patch {} .canonical ⟨harvestClass plainBody, []⟩ = .ok report ⟨patchedClass plainBody, log⟩ ∧
    (∃ place : Nat, (patchedClass plainBody).methods[place]?.bind Method.code? = some code') ∧
    code'.instructions[report.anchor + 4]? = some (.loadField m false) ∧
    (harvestClass plainBody).fields.head? = some field ∧
    (Instruction.loadField m false).LinksTo (patchedClass plainBody) field := by
  have hpool : (harvestClass plainBody).pool.count ≤ ConstantPool.maxSlots := by decide
  obtain ⟨log, hpatch⟩ := patch_plainBody
  obtain ⟨hname, -, hfields, place, code', -, hcode, -, hreads⟩ := field_reads_link_iff hpool hpatch
  obtain ⟨m, field, hread, hleads, hlinks⟩ := hreads (3, "theWorld") (by decide)
  have hfirst : (harvestClass plainBody).fields.head? = some field := by
    rw [← hleads.first, ClassFile.runtimeField?, hfields]
    rfl
  obtain rfl := Option.some.inj hfirst
  exact ⟨_, log, code', m, _, hpool, hpatch, ⟨place, hcode⟩, hread, hfirst, hlinks.mpr (by decide)⟩

/-- A class in which the world is static. -/
def staticWorldClass : ClassFile :=
  { harvestClass plainBody with
    fields := [⟨8, 5, 6, "theWorld", "LW;", []⟩, ⟨0, 7, 6, "thisPlayerMP", "LW;", []⟩] }

/-- The class is patched all the same, and the read of the world links to no field. -/
theorem static_world_unlinked : ∃ report log c',
    patch {} .canonical ⟨staticWorldClass, []⟩ = .ok report ⟨c', log⟩ ∧
    ((c'.methods[0]?.bind Method.code?).bind fun code => code.instructions[report.anchor + 4]?) =
      some (.loadField ⟨23, "A", "theWorld", "LW;"⟩ false) ∧
    ∀ field, ¬(Instruction.loadField ⟨23, "A", "theWorld", "LW;"⟩ false).LinksTo c' field := by
  obtain ⟨log, hpatch⟩ := Step.eq_ok_of_outcome (show
    (Step.outcome (patch {} .canonical) staticWorldClass).1 =
      .ok ⟨"A", "uncheckedTryHarvestBlock", "(III)V", 0, 4, 11, 12, 7, 5⟩ by decide +kernel)
  refine ⟨_, log, _, hpatch, by decide +kernel, ?_⟩
  rintro field ⟨hleads, hkind⟩
  -- The fields are those of the class as it was.
  obtain ⟨_, _, _, _, _, _, _, hspec⟩ := patch_spec hpatch
  have hdeclared := hleads.declared
  rw [ClassFile.declared?, hspec.keeps_fields.2] at hdeclared
  obtain rfl : ⟨8, 5, 6, "theWorld", "LW;", []⟩ = field := Option.some.inj hdeclared
  exact absurd hkind (by decide)

end Transformer

end ClassGraft
