/-
Writing a patched class.

A patch checks what it does to a body: a class whose target method has been given a spliced body
is written as far as the class was (`ClassFile.failsBy_toBytes_withCode`), since the tables of a
spliced body fit (`IsSplice.fitting`).  It does not check the texts that it puts into the pool.  The
names and descriptors of the class have been written before, but the descriptor of the handler is
put together from two of them and may take more bytes than a text can have.  Then the patch succeeds
and the patched class cannot be written (`Transformer.toBytes_patch`).
-/
import ClassGraft.Proofs.PatchedDepths
import ClassGraft.Proofs.PooledTexts
import ClassGraft.Proofs.Writable

namespace ClassGraft

/-! ### Another body -/

theorem MethodAttribute.mem_replaceCode {body : Code} {attributes : List MethodAttribute}
    {a : MethodAttribute} (h : a ∈ replaceCode body attributes) :
    a ∈ attributes ∨ ∃ nameIndex, a = .code nameIndex body := by
  -- Only the first body is replaced.
  induction attributes with
  | nil => exact .inl h
  | cons b rest ih =>
    cases b with
    | code nameIndex =>
      rcases List.mem_cons.mp h with rfl | h
      · exact .inr ⟨nameIndex, rfl⟩
      · exact .inl (List.mem_cons_of_mem _ h)
    | other raw =>
      rcases List.mem_cons.mp h with rfl | h
      · exact .inl List.mem_cons_self
      · exact (ih h).imp_left (List.mem_cons_of_mem _)

/-- Where a method has been written, so has its body. -/
theorem Method.exists_body_of_write [Build] {method : Method} {code : Code} {b : Bytes}
    (h : method.write = .ok b) (hcode : method.code? = some code) :
    ∃ body, code.write method.name = .ok body ∧ body.length ≤ b.length := by
  obtain ⟨_, hattributes, rfl⟩ := write_eq_ok_iff.mp h
  obtain ⟨items, hmany, rfl⟩ := Bytes.ofTableM_eq_ok_iff.mp hattributes
  obtain ⟨a, ha, hbody⟩ := List.exists_of_findSome?_eq_some hcode
  obtain ⟨written, hwrite, hle⟩ := hmany.exists_of_mem ha
  cases a with
  | code nameIndex body =>
    obtain rfl := Option.some.inj hbody
    obtain ⟨body, hbody, hwrite⟩ := Bytes.bind_eq_ok_iff.mp hwrite
    obtain ⟨-, rfl⟩ := RawAttribute.write_eq_ok_iff.mp hwrite
    refine ⟨body, hbody, ?_⟩
    simp only [List.length_append] at hle ⊢
    omega
  | other raw => exact absurd hbody (by simp [MethodAttribute.code?])

section WithCode

variable {limit : Nat} {body : Code}

/-- A method that has been written is written with another body, unless that or its attribute is
too large. -/
theorem Method.failsBy_write_withCode [Build] {method : Method} {b : Bytes}
    (h : method.write = .ok b) (hbody : FailsBy (Fault.IsTooLarge limit) (body.write method.name))
    (hle : ∀ info, body.write method.name = .ok info → info.length ≤ limit) :
    FailsBy (Fault.IsTooLarge limit) (method.withCode body).write := by
  obtain ⟨_, hattributes, -⟩ := write_eq_ok_iff.mp h
  have hwritten := Bytes.exists_ofTableM_iff.mp ⟨_, hattributes⟩
  refine (FailsBy.ofTableM fun a ha => ?_).bind fun _ => .ok _ _
  rcases MethodAttribute.mem_replaceCode ha with ha | ⟨nameIndex, rfl⟩
  · exact .of_exists (hwritten a ha)
  · exact hbody.bind_of_ok fun info hinfo => RawAttribute.failsBy_write (hle info hinfo)

namespace ClassFile

variable {c : ClassFile} {written : Bytes} {place : Nat} {method : Method}

/-- A class that has been written is written with another body and another pool, unless the pool
cannot be written or the body or its attribute is too large. -/
theorem failsBy_toBytes_withCode [Build] (h : c.toBytes = .ok written)
    (hmethod : c.methods[place]? = some method) {pool : ConstantPool}
    (hpool : ∃ b, pool.write = .ok b)
    (hbody : FailsBy (Fault.IsTooLarge limit) (body.write method.name))
    (hle : ∀ info, body.write method.name = .ok info → info.length ≤ limit) :
    FailsBy (Fault.IsTooLarge limit)
      ({ c.withCode place body with pool } : ClassFile).toBytes := by
  obtain ⟨_, fields, methods, attributes, -, hfields, hmethods, hattributes, -⟩ :=
    toBytes_eq_ok_iff.mp h
  have hwritten := Bytes.exists_ofTableM_iff.mp ⟨_, hmethods⟩
  -- All other methods are those that have been written.
  have hmethods' : ∀ m ∈ (c.withCode place body).methods,
      FailsBy (Fault.IsTooLarge limit) m.write := by
    intro m hm
    obtain ⟨n, hn⟩ := List.mem_iff_getElem?.mp hm
    rw [withCode, List.getElem?_modify, Option.map_eq_map, Option.map_eq_some_iff] at hn
    obtain ⟨original, horiginal, rfl⟩ := hn
    obtain ⟨b, hb⟩ := hwritten original (List.mem_of_getElem? horiginal)
    split
    · next hplace =>
      rw [← hplace, hmethod] at horiginal
      obtain rfl := Option.some.inj horiginal
      exact Method.failsBy_write_withCode hb hbody hle
    · exact .of_exists ⟨b, hb⟩
  exact (FailsBy.of_exists hpool).bind fun _ =>
    (FailsBy.of_exists ⟨fields, hfields⟩).bind fun _ =>
      (FailsBy.ofTableM hmethods').bind fun _ =>
        (FailsBy.of_exists ⟨attributes, hattributes⟩).bind fun _ => .ok _ _

/-- Where a class has been written, so have its bodies. -/
theorem exists_body_of_toBytes [Build] (h : c.toBytes = .ok written)
    (hmethod : c.methods[place]? = some method) {code : Code} (hcode : method.code? = some code) :
    ∃ info, code.write method.name = .ok info ∧ info.length ≤ written.length := by
  obtain ⟨_, _, _, _, -, -, hmethods, -, rfl⟩ := toBytes_eq_ok_iff.mp h
  obtain ⟨items, hmany, rfl⟩ := Bytes.ofTableM_eq_ok_iff.mp hmethods
  obtain ⟨b, hb, hle⟩ := hmany.exists_of_mem (List.mem_of_getElem? hmethod)
  obtain ⟨info, hinfo, hle'⟩ := Method.exists_body_of_write hb hcode
  refine ⟨info, hinfo, ?_⟩
  rw [assemble]
  simp only [List.length_append]
  omega

end ClassFile

end WithCode

/-! ### The spliced body -/

/-- The tables of a spliced body fit, and take no more than before. -/
theorem IsSplice.fitting [Build] {method : Method} {anchor : Nat} {injection : Injection}
    {spliced : Spliced} {draft draft' : Draft} {m : HandlerMembers}
    (h : IsSplice method anchor injection spliced draft draft' m) (hcode : draft.code.Fitting) :
    draft'.code.Fitting ∧ draft'.code.tableSize ≤ draft.code.tableSize := by
  obtain ⟨i, hremove⟩ := h.code
  have hle := Code.tableSize_remove_le hremove
  rw [Code.tableSize_insert] at hle
  exact ⟨(hcode.insert _ _).remove hremove, hle⟩

/-! ### The patched class -/

namespace Transformer

/-- The first field of a class that has the run-time name of a canonical one. -/
def fieldOf? (t : Transformer) (mode : NamingMode) (c : ClassFile) (canonical : String) :
    Option Field := do
  let owner ← c.name.toOption
  c.fields.find? fun field =>
    t.remapper.fieldName owner field.name field.descriptor == mode.resolve canonical

/-- The descriptor of the handler that a class calls after a patch. -/
def handlerDescriptor? (t : Transformer) (mode : NamingMode) (c : ClassFile) : Option String := do
  let world ← t.fieldOf? mode c t.config.worldField
  let player ← t.fieldOf? mode c t.config.playerField
  return GraftConfig.handlerDescriptor world.descriptor player.descriptor

section Patch

variable {t : Transformer} {mode : NamingMode} {report : GraftReport} {c c' : ClassFile}
  {log log' : List LogLine} {bytes written : Bytes}

/-- A patch puts the names and descriptors of two fields into the pool, and what is called. -/
theorem mem_texts_of_patch [Build] (h : t.patch mode ⟨c, log⟩ = .ok report ⟨c', log'⟩) :
    ∃ owner world player, c.name = .ok owner ∧
      t.fieldOf? mode c t.config.worldField = some world ∧
      t.fieldOf? mode c t.config.playerField = some player ∧
      ∀ b, b ∈ c'.pool.texts ↔ b ∈ c.pool.texts ∨
        b ∈ (Injection.texts ⟨t.config, mode, owner, []⟩ ⟨world.name, world.descriptor⟩
          ⟨player.name, player.descriptor⟩).map ModifiedUtf8.encode := by
  obtain ⟨place, method, code, injection, spliced, maxima, draft, hpatch⟩ := patch_spec h
  obtain ⟨_, _, hgraft⟩ := hpatch.grafted
  obtain ⟨s, hsplice, hmaxima⟩ := graft_eq_ok_iff.mp hgraft
  obtain ⟨_, _, _, -, -, -, -, hdraft⟩ := remeasure_spec hmaxima
  obtain rfl : draft = _ := hdraft
  obtain ⟨world, player, hworld, hplayer, htexts⟩ := mem_texts_of_splice hsplice
  obtain ⟨hconfig, hmode, howner⟩ := hpatch.asked
  obtain ⟨_, _, hscan⟩ := hpatch.scanned
  -- What the splice finds among the scanned records are the first fields of the class.
  have hfound : ∀ {canonical : String} {record : FieldRecord},
      mode.resolve canonical ∈
        [mode.resolve t.config.worldField, mode.resolve t.config.playerField] →
      injection.fields.find (mode.resolve canonical) = .ok record → ∃ field,
        t.fieldOf? mode c canonical = some field ∧ record = ⟨field.name, field.descriptor⟩ := by
    intro canonical record hwanted hrecord
    obtain ⟨field, hfield, hrecord⟩ := FieldRecords.find_of_scan hscan howner hwanted hrecord
    refine ⟨field, ?_, hrecord⟩
    rw [fieldOf?, howner]
    exact hfield
  rw [hconfig, hmode] at hworld hplayer
  obtain ⟨world, hworld', rfl⟩ := hfound (by simp) hworld
  obtain ⟨player, hplayer', rfl⟩ := hfound (by simp) hplayer
  refine ⟨injection.owner, world, player, howner, hworld', hplayer', fun b => ?_⟩
  have hpool : c'.pool = s.value.pool := by rw [hpatch.result]
  rw [hpool, htexts b, Injection.texts, hconfig]
  rfl

/-- A patched class whose pool can be written is written as far as the class was, unless the body
that it has been given is too large. -/
theorem failsBy_toBytes_patch [Build] (hread : ClassFile.ofBytes bytes = .ok c)
    (hwritten : c.toBytes = .ok written)
    (h : t.patch mode ⟨c, log⟩ = .ok report ⟨c', log'⟩) (hpool : ∃ b, c'.pool.write = .ok b) :
    FailsBy (Fault.IsTooLarge (3 * written.length + 65535)) c'.toBytes := by
  obtain ⟨place, method, code, injection, spliced, maxima, draft, hpatch⟩ := patch_spec h
  obtain ⟨_, _, hgraft⟩ := hpatch.grafted
  obtain ⟨s, hsplice, hmaxima⟩ := graft_eq_ok_iff.mp hgraft
  obtain ⟨m, hspliced⟩ := splice_spec hsplice
  obtain ⟨_, encoded, _, -, hencode, -, -, hdraft⟩ := remeasure_spec hmaxima
  obtain rfl : draft = _ := hdraft
  have hproper := (ClassFile.proper_of_ofBytes hread).1
  obtain ⟨info, hinfo, hle⟩ :=
    ClassFile.exists_body_of_toBytes hwritten hpatch.atPlace hpatch.body
  obtain ⟨hfitting', hsize'⟩ := hspliced.fitting (Code.fitting_of_write hinfo)
  have hcode := (hspliced.proper hproper.pool (Method.proper_of_code?
    (hproper.methods method (List.mem_of_getElem? hpatch.atPlace)) hpatch.body)).2
  -- The declared sizes of the body do not matter for its tables.
  have hresized : Code.Fitting { s.value.code with
      maxStack := maxima.maxStack, maxLocals := maxima.maxLocals } :=
    ⟨hfitting'.inside, hfitting'.counted, hfitting'.ascending⟩
  have hlimit : 3 * s.value.code.tableSize ≤ 3 * written.length :=
    Nat.mul_le_mul_left 3 (hsize'.trans ((Code.tableSize_le_of_write hinfo).trans hle))
  rw [hpatch.result] at hpool ⊢
  refine ClassFile.failsBy_toBytes_withCode hwritten hpatch.atPlace hpool ?_ fun info' hinfo' => ?_
  · exact (Code.failsBy_write hresized hencode).imp
      (Fault.IsTooLarge.mono (hlimit.trans (Nat.le_add_right _ _)))
  · exact (Code.length_write_le (hcode.resized _ _) hinfo').trans (Nat.add_le_add_right hlimit _)

/-- Texts that have been read from a class that has been written can be written again. -/
theorem length_encode_of_utf8 [Build] (h : c.toBytes = .ok written) {i : UInt16} {text : String}
    (htext : c.pool.utf8 i = .ok text) : (ModifiedUtf8.encode text).length ≤ 65535 := by
  obtain ⟨pool, _, _, _, hpool, -⟩ := ClassFile.toBytes_eq_ok_iff.mp h
  obtain ⟨b, hb, hle⟩ := ConstantPool.exists_text_of_utf8 htext
  exact hle.trans (ConstantPool.exists_write_iff.mp ⟨pool, hpool⟩ b hb)

/-- The names that stand in the default configuration can be written. -/
theorem length_encode_default : ∀ text ∈ [({} : GraftConfig).handlerClass,
    ({} : GraftConfig).handlerField, ({} : GraftConfig).handlerType,
    ({} : GraftConfig).handlerMethod], (ModifiedUtf8.encode text).length ≤ 65535 := by
  decide +kernel

/-- With the default configuration a class that could be written can be written after a patch
exactly if the descriptor of its handler fits a text.  Otherwise the patch has succeeded in vain.
Only where the class has been of more than a gigabyte, an attribute may be too large as well. -/
theorem toBytes_patch [Build] {remapper : Remapper} (hread : ClassFile.ofBytes bytes = .ok c)
    (hwritten : c.toBytes = .ok written)
    (hpatch : patch { remapper } mode ⟨c, log⟩ = .ok report ⟨c', log'⟩) :
    ∃ descriptor, handlerDescriptor? { remapper } mode c = some descriptor ∧
      ((ModifiedUtf8.encode descriptor).length ≤ 65535 → (∃ bytes', c'.toBytes = .ok bytes') ∨
        ∃ n, 4294967296 ≤ n ∧ n ≤ 3 * written.length + 65535 ∧
          c'.toBytes = .error (.malformed (.attributeTooLarge n))) ∧
      (65535 < (ModifiedUtf8.encode descriptor).length → c'.toBytes =
        .error (.malformed (.utf8TooLong (ModifiedUtf8.encode descriptor).length))) := by
  obtain ⟨owner, world, player, howner, hworld, hplayer, htexts⟩ := mem_texts_of_patch hpatch
  have hproper := (ClassFile.proper_of_ofBytes hread).1
  obtain ⟨_, -, howner'⟩ := ConstantPool.className_eq_ok_iff.mp howner
  -- The descriptor of the handler is the only text that has neither been read with the class nor
  -- stands in the configuration.
  have hfield : ∀ {canonical : String} {field : Field},
      fieldOf? { remapper } mode c canonical = some field →
        (ModifiedUtf8.encode field.name).length ≤ 65535 ∧
          (ModifiedUtf8.encode field.descriptor).length ≤ 65535 := by
    intro canonical field h
    rw [fieldOf?, howner] at h
    have hf := hproper.fields field (List.mem_of_find?_eq_some h)
    exact ⟨length_encode_of_utf8 hwritten hf.name, length_encode_of_utf8 hwritten hf.descriptor⟩
  have hdefault := length_encode_default
  simp only [List.forall_mem_cons] at hdefault
  obtain ⟨hclass, hholder, htype, hmethod, -⟩ := hdefault
  set descriptor := GraftConfig.handlerDescriptor world.descriptor player.descriptor with hd
  have hnamed : ∀ text ∈ Injection.texts ⟨{}, mode, owner, []⟩ ⟨world.name, world.descriptor⟩
      ⟨player.name, player.descriptor⟩,
      (ModifiedUtf8.encode text).length ≤ 65535 ∨ text = descriptor := by
    have hown := length_encode_of_utf8 hwritten howner'
    obtain ⟨hw, hw'⟩ := hfield hworld
    obtain ⟨hp, hp'⟩ := hfield hplayer
    simp only [Injection.texts, List.forall_mem_cons]
    exact ⟨.inl hclass, .inl hholder, .inl htype, .inl hown, .inl hw, .inl hw', .inl hown, .inl hp,
      .inl hp', .inl hclass, .inl hmethod, .inr rfl, List.forall_mem_nil _⟩
  have hshort : ∀ b ∈ c'.pool.texts, b.length ≤ 65535 ∨ b = ModifiedUtf8.encode descriptor := by
    intro b hb
    rcases (htexts b).mp hb with hb | hb
    · obtain ⟨pool, _, _, _, hpool, -⟩ := ClassFile.toBytes_eq_ok_iff.mp hwritten
      exact .inl (ConstantPool.exists_write_iff.mp ⟨pool, hpool⟩ b hb)
    · obtain ⟨text, htext, rfl⟩ := List.mem_map.mp hb
      exact (hnamed text htext).imp_right (congrArg _)
  have hmem : ModifiedUtf8.encode descriptor ∈ c'.pool.texts :=
    (htexts _).mpr (.inr (List.mem_map_of_mem (by simp [Injection.texts, hd])))
  refine ⟨descriptor, ?_, fun hfits => ?_, fun hlong => ?_⟩
  · rw [handlerDescriptor?, hworld, hplayer]
    rfl
  · have hpool := ConstantPool.exists_write_iff.mpr fun b hb =>
      (hshort b hb).elim id fun h => h ▸ hfits
    cases hbytes : c'.toBytes with
    | ok bytes' => exact .inl ⟨bytes', rfl⟩
    | error fault =>
      obtain ⟨n, hlarge, hle, rfl⟩ :=
        failsBy_toBytes_patch hread hwritten hpatch hpool fault hbytes
      exact .inr ⟨n, hlarge, hle, rfl⟩
  · -- The pool comes first, and no other text of it is too long.
    cases hpool : c'.pool.write with
    | ok b => exact absurd (ConstantPool.exists_write_iff.mp ⟨b, hpool⟩ _ hmem) (not_le.mpr hlong)
    | error fault =>
      obtain ⟨b, hb, hblong, rfl⟩ := c'.pool.failsBy_write fault hpool
      obtain rfl := (hshort b hb).resolve_left (not_le.mpr hblong)
      rw [ClassFile.toBytes, hpool]
      rfl

end Patch

attribute [local instance] Build.checked

/-- A handler that takes objects of a class with a short name makes for no long text. -/
theorem toBytes_patchedClass_plainBody : ∃ bytes report log descriptor,
    ClassFile.ofBytes bytes = .ok (harvestClass plainBody) ∧
    (harvestClass plainBody).toBytes = .ok bytes ∧
    patch {} .canonical ⟨harvestClass plainBody, []⟩ = .ok report ⟨patchedClass plainBody, log⟩ ∧
    handlerDescriptor? {} .canonical (harvestClass plainBody) = some descriptor ∧
    (ModifiedUtf8.encode descriptor).length ≤ 65535 ∧
    ∃ bytes', (patchedClass plainBody).toBytes = .ok bytes' := by
  have hreread : ((harvestClass plainBody).toBytes >>= ClassFile.ofBytes) =
      .ok (harvestClass plainBody) := by decide +kernel
  obtain ⟨bytes, hwritten, hread⟩ := Bytes.bind_eq_ok_iff.mp hreread
  have hlength : ((harvestClass plainBody).toBytes.map List.length) = .ok 225 := by decide +kernel
  obtain ⟨log, hpatch⟩ := patch_plainBody
  have hdescriptor : handlerDescriptor? {} .canonical (harvestClass plainBody) =
      some "(LW;LW;IIIZ)V" := by decide +kernel
  have hshort : (ModifiedUtf8.encode "(LW;LW;IIIZ)V").length ≤ 65535 := by decide +kernel
  obtain ⟨_, hsome, hfits, -⟩ := toBytes_patch hread hwritten hpatch
  obtain rfl := Option.some.inj (hdescriptor.symm.trans hsome)
  refine ⟨bytes, _, log, _, hread, hwritten, hpatch, hsome, hshort, ?_⟩
  rcases hfits hshort with hok | ⟨n, hlarge, hle, -⟩
  · exact hok
  · rw [hwritten] at hlength
    have hlength : bytes.length = 225 := Except.ok.inj hlength
    omega

end Transformer

end ClassGraft
