/-
Method bodies as bytes.

A body is read from exactly the bytes that it is written as, up to three things: the padding of
switches, the form of frames that lie far apart (`Code.widened`), and offsets that two bytes cannot
hold.  `Code.parse_eq_ok_iff` and `Code.write_eq_ok_iff` put both directions in terms of the same
parts; a body that reading gives is proper (`Code.Proper`), which is all that writing relies on.
-/
import ClassGraft.Proofs.CodeArray
import ClassGraft.Proofs.Frames

namespace ClassGraft

open Reader

variable {pool : ConstantPool} {layout : Layout}

/-! ### Attributes of a body -/

namespace CodeAttribute

/-- The scopes of variables that the attribute holds. -/
def scopes : CodeAttribute → List LocalVariable
  | .localVariables _ entries | .localVariableTypes _ entries => entries
  | _ => []

/-- An attribute as reading gives it: it has the name of its kind, and its entries can be counted
and are proper. -/
def Proper (pool : ConstantPool) : CodeAttribute → Prop
  | .lineNumbers nameIndex entries =>
    pool.utf8 nameIndex = .ok "LineNumberTable" ∧ entries.length < 65536
  | .localVariables nameIndex entries =>
    pool.utf8 nameIndex = .ok "LocalVariableTable" ∧ entries.length < 65536 ∧
      ∀ entry ∈ entries, entry.Proper
  | .localVariableTypes nameIndex entries =>
    pool.utf8 nameIndex = .ok "LocalVariableTypeTable" ∧ entries.length < 65536 ∧
      ∀ entry ∈ entries, entry.Proper
  | .stackMap nameIndex frames =>
    pool.utf8 nameIndex = .ok "StackMapTable" ∧ frames.length < 65536 ∧
      ∀ frame ∈ frames, frame.kind.Proper
  | .other raw => ∃ name, pool.utf8 raw.nameIndex = .ok name ∧
      CodeAttributeKind.ofName? name = none

/-- The attribute with its frames in the forms in which they are written. -/
def widened (layout : Layout) : CodeAttribute → CodeAttribute
  | .stackMap nameIndex frames => .stackMap nameIndex (StackMap.widened layout none frames)
  | a => a

/-- Whether the contents of an attribute are a form of it. -/
def Contents (layout : Layout) (raw : RawAttribute) : CodeAttribute → Prop
  | .lineNumbers nameIndex entries => raw.nameIndex = nameIndex ∧
      Bytes.Table (fun entry b => LineNumber.write layout entry = .ok b) entries raw.info
  | .localVariables nameIndex entries | .localVariableTypes nameIndex entries =>
    raw.nameIndex = nameIndex ∧ Bytes.Table (LocalVariable.Form layout) entries raw.info
  | .stackMap nameIndex frames => raw.nameIndex = nameIndex ∧ ∃ items : Bytes,
      StackMap.Form layout none frames items ∧
        raw.info = BigEndian.encode 2 frames.length ++ items
  | .other raw' => raw' = raw

/-- Scopes that have a form are proper. -/
theorem proper_of_scopes (h : layout.Ascending) {entries : List LocalVariable} {b : Bytes}
    (hb : Bytes.Table (LocalVariable.Form layout) entries b) :
    ∀ entry ∈ entries, entry.Proper := by
  intro entry hentry
  obtain ⟨_, hform, -⟩ := hb.exists_of_mem hentry
  exact LocalVariable.proper_of_form h hform

/-- A proper attribute has a name. -/
theorem exists_name {raw : RawAttribute} {a : CodeAttribute} (ha : a.Proper pool)
    (hraw : a.Contents layout raw) : ∃ name, pool.utf8 raw.nameIndex = .ok name := by
  cases a with
  | other raw' =>
    obtain rfl : raw' = raw := hraw
    obtain ⟨name, hname, -⟩ := ha
    exact ⟨name, hname⟩
  | _ =>
    obtain ⟨rfl, -⟩ := hraw
    exact ⟨_, ha.1⟩

theorem eval_lineNumbers_eq_ok_iff (h : layout.Ascending) {entries : List LineNumber}
    {info : Bytes} :
    (LineNumber.readAll layout).eval info = .ok entries ↔
      Bytes.Table (fun entry b => LineNumber.write layout entry = .ok b) entries info :=
  eval_table_eq_ok_iff (LineNumber.takes_read h)

theorem eval_scopes_eq_ok_iff (h : layout.Ascending) {entries : List LocalVariable}
    {info : Bytes} :
    (LocalVariable.readAll layout).eval info = .ok entries ↔
      Bytes.Table (LocalVariable.Form layout) entries info :=
  eval_table_eq_ok_iff (LocalVariable.takes_read h)

/-- The name and the contents of an attribute are read as the attribute that they are a form of. -/
theorem ofRaw_eq_ok_iff (h : layout.Ascending) {raw : RawAttribute} {name : String}
    (hname : pool.utf8 raw.nameIndex = .ok name) {a : CodeAttribute} :
    ofRaw layout name raw = .ok a ↔
      a.Proper pool ∧ a.widened layout = a ∧ a.Contents layout raw := by
  constructor
  · intro ha
    by_cases h₁ : name = "LineNumberTable"
    · subst h₁
      obtain ⟨entries, hentries, ha⟩ := Bytes.bind_eq_ok_iff.mp ha
      obtain rfl := Except.ok.inj ha
      rw [eval_lineNumbers_eq_ok_iff h] at hentries
      exact ⟨⟨hname, hentries.1⟩, rfl, rfl, hentries⟩
    by_cases h₂ : name = "LocalVariableTable"
    · subst h₂
      obtain ⟨entries, hentries, ha⟩ := Bytes.bind_eq_ok_iff.mp ha
      obtain rfl := Except.ok.inj ha
      rw [eval_scopes_eq_ok_iff h] at hentries
      exact ⟨⟨hname, hentries.1, proper_of_scopes h hentries⟩, rfl, rfl, hentries⟩
    by_cases h₃ : name = "LocalVariableTypeTable"
    · subst h₃
      obtain ⟨entries, hentries, ha⟩ := Bytes.bind_eq_ok_iff.mp ha
      obtain rfl := Except.ok.inj ha
      rw [eval_scopes_eq_ok_iff h] at hentries
      exact ⟨⟨hname, hentries.1, proper_of_scopes h hentries⟩, rfl, rfl, hentries⟩
    by_cases h₄ : name = "StackMapTable"
    · subst h₄
      obtain ⟨frames, hframes, ha⟩ := Bytes.bind_eq_ok_iff.mp ha
      obtain rfl := Except.ok.inj ha
      obtain ⟨hlen, hproper, hwidened, hform⟩ := (StackMap.parse_eq_ok_iff h).mp hframes
      exact ⟨⟨hname, hlen, hproper⟩, by rw [widened, hwidened], rfl, hform⟩
    · -- An attribute of any other name is kept as it is.
      have hnone : CodeAttributeKind.ofName? name = none := by
        unfold CodeAttributeKind.ofName?
        split <;> simp_all
      rw [ofRaw, hnone] at ha
      obtain rfl := Except.ok.inj ha
      exact ⟨⟨name, hname, hnone⟩, rfl, rfl⟩
  · rintro ⟨hproper, hwidened, hcontents⟩
    cases a with
    | lineNumbers nameIndex entries =>
      obtain ⟨rfl, hentries⟩ := hcontents
      obtain rfl := Except.ok.inj (hname.symm.trans hproper.1)
      exact Bytes.bind_eq_ok_iff.mpr
        ⟨entries, (eval_lineNumbers_eq_ok_iff h).mpr hentries, rfl⟩
    | localVariables nameIndex entries =>
      obtain ⟨rfl, hentries⟩ := hcontents
      obtain rfl := Except.ok.inj (hname.symm.trans hproper.1)
      exact Bytes.bind_eq_ok_iff.mpr ⟨entries, (eval_scopes_eq_ok_iff h).mpr hentries, rfl⟩
    | localVariableTypes nameIndex entries =>
      obtain ⟨rfl, hentries⟩ := hcontents
      obtain rfl := Except.ok.inj (hname.symm.trans hproper.1)
      exact Bytes.bind_eq_ok_iff.mpr ⟨entries, (eval_scopes_eq_ok_iff h).mpr hentries, rfl⟩
    | stackMap nameIndex frames =>
      obtain ⟨rfl, hframes⟩ := hcontents
      obtain rfl := Except.ok.inj (hname.symm.trans hproper.1)
      rw [widened, CodeAttribute.stackMap.injEq] at hwidened
      exact Bytes.bind_eq_ok_iff.mpr ⟨frames, (StackMap.parse_eq_ok_iff h).mpr
        ⟨hproper.2.1, hproper.2.2, hwidened.2, hframes⟩, rfl⟩
    | other raw' =>
      obtain rfl : raw' = raw := hcontents
      obtain ⟨name', hname', hnone⟩ := hproper
      obtain rfl := Except.ok.inj (hname.symm.trans hname')
      rw [ofRaw, hnone]

/-- Where offsets fit two bytes, a proper attribute has exactly the contents that are written. -/
theorem contents_iff_toRaw (h : layout.Ascending) (hfits : layout.Fits) {a : CodeAttribute}
    (ha : a.Proper pool) {raw : RawAttribute} :
    a.Contents layout raw ↔ a.toRaw layout = .ok raw := by
  have hraw : ∀ (nameIndex : UInt16) (e : Except Fault Bytes),
      raw.nameIndex = nameIndex ∧ e = .ok raw.info ↔
        (do return ⟨nameIndex, ← e⟩ : Except Fault RawAttribute) = .ok raw := by
    intro nameIndex e
    rw [Bytes.bind_eq_ok_iff]
    constructor
    · rintro ⟨rfl, he⟩
      exact ⟨raw.info, he, rfl⟩
    · rintro ⟨b, he, hb⟩
      obtain rfl := Except.ok.inj hb
      exact ⟨rfl, he⟩
  have hscopes : ∀ entries : List LocalVariable, entries.length < 65536 →
      (∀ entry ∈ entries, entry.Proper) →
      (Bytes.Table (LocalVariable.Form layout) entries raw.info ↔
        Bytes.ofTableM (LocalVariable.write layout) entries = .ok raw.info) := by
    intro entries hlen hproper
    have hform : LocalVariable.Form layout =
        fun entry b => entry.Proper ∧ LocalVariable.write layout entry = .ok b :=
      funext₂ fun _ _ => propext (LocalVariable.form_iff_write h hfits)
    rw [hform, Bytes.table_and_iff, Bytes.table_iff_ofTableM]
    exact ⟨fun hb => hb.2.2, fun hb => ⟨hproper, hlen, hb⟩⟩
  cases a with
  | lineNumbers nameIndex entries =>
    rw [Contents, Bytes.table_iff_ofTableM, and_iff_right ha.2]
    exact hraw nameIndex _
  | localVariables nameIndex entries =>
    rw [Contents, hscopes entries ha.2.1 ha.2.2]
    exact hraw nameIndex _
  | localVariableTypes nameIndex entries =>
    rw [Contents, hscopes entries ha.2.1 ha.2.2]
    exact hraw nameIndex _
  | stackMap nameIndex frames =>
    have hframes : StackMap.write layout frames = .ok raw.info ↔ _ := StackMap.write_eq_ok_iff hfits
    rw [and_iff_right ha.2.1] at hframes
    rw [Contents, ← hframes]
    exact hraw nameIndex _
  | other raw' =>
    rw [Contents, toRaw, Except.ok.injEq]

/-- Writing does not tell an attribute from the widened one. -/
theorem contents_widened_iff {raw : RawAttribute} {a : CodeAttribute} :
    (a.widened layout).Contents layout raw ↔ a.Contents layout raw := by
  cases a with
  | stackMap nameIndex frames =>
    simp only [widened, Contents, StackMap.form_widened_iff, StackMap.length_widened]
  | _ => rfl

theorem widened_widened (a : CodeAttribute) :
    (a.widened layout).widened layout = a.widened layout := by
  cases a with
  | stackMap nameIndex frames => rw [widened, widened, StackMap.widened_widened]
  | _ => rfl

theorem proper_widened {a : CodeAttribute} (ha : a.Proper pool) :
    (a.widened layout).Proper pool := by
  cases a with
  | stackMap nameIndex frames =>
    refine ⟨ha.1, ?_, ?_⟩
    · rw [StackMap.length_widened]
      exact ha.2.1
    · exact StackMap.proper_widened ha.2.2
  | _ => exact ha

/-- An attribute is read from exactly the bytes of a form of it. -/
theorem takes_read (h : layout.Ascending) : (CodeAttribute.read pool layout).Takes fun a b =>
    (a.Proper pool ∧ a.widened layout = a) ∧
      ∃ raw : RawAttribute, a.Contents layout raw ∧ raw.write = .ok b := by
  intro c a c'
  simp only [CodeAttribute.read, bind_eq_ok_iff, RawAttribute.takes_read _ _ _, ofExcept_eq_ok_iff]
  constructor
  · rintro ⟨raw, m, ⟨b, hraw, hb⟩, name, _, ⟨hname, rfl⟩, ha, rfl⟩
    obtain ⟨hproper, hwidened, hcontents⟩ := (ofRaw_eq_ok_iff h hname).mp ha
    exact ⟨b, ⟨⟨hproper, hwidened⟩, raw, hcontents, hraw⟩, hb⟩
  · rintro ⟨b, ⟨⟨hproper, hwidened⟩, raw, hcontents, hraw⟩, hb⟩
    obtain ⟨name, hname⟩ := exists_name hproper hcontents
    exact ⟨raw, c', ⟨b, hraw, hb⟩, name, c', ⟨hname, rfl⟩,
      (ofRaw_eq_ok_iff h hname).mpr ⟨hproper, hwidened, hcontents⟩, rfl⟩

end CodeAttribute

/-! ### Bodies -/

namespace Code

/-- A body as reading gives it. -/
structure Proper [Build] (pool : ConstantPool) (code : Code) : Prop where
  nonempty : code.instructions ≠ []
  legible : ∀ i ∈ code.instructions, i.Legible pool
  handlers_lt : code.handlers.length < 65536
  handlers : ∀ handler ∈ code.handlers, handler.Proper code.instructions.length
  attributes_lt : code.attributes.length < 65536
  attributes : ∀ a ∈ code.attributes, a.Proper pool

/-- The body with its frames in the forms in which they are written. -/
def widened (code : Code) : Code :=
  { code with
    attributes := code.attributes.map
      (CodeAttribute.widened (Layout.ofInstructions code.instructions)) }

/-- A body as bytes, from its parts. -/
def assemble (code : Code) (array handlers attributes : Bytes) : Bytes :=
  Bytes.ofU16 code.maxStack ++ (Bytes.ofU16 code.maxLocals ++
    (BigEndian.encode 4 array.length ++ (array ++ (handlers ++ attributes))))

/-- The code array in the bytes of a body. -/
def arrayOf (body : Bytes) : Bytes :=
  (body.drop 8).take (BigEndian.decode ((body.drop 4).take 4))

theorem arrayOf_assemble (code : Code) {array : Bytes} (handlers attributes : Bytes)
    (h : array.length < 4294967296) :
    arrayOf (code.assemble array handlers attributes) = array := by
  have h₂ : ∀ v : UInt16, (Bytes.ofU16 v).length = 2 := fun v => BigEndian.length_encode 2 _
  have h₄ : (BigEndian.encode 4 array.length).length = 4 := BigEndian.length_encode 4 _
  have hbefore : (code.assemble array handlers attributes).drop 4 =
      BigEndian.encode 4 array.length ++ (array ++ (handlers ++ attributes)) := by
    rw [assemble, ← List.append_assoc, List.drop_left' (by simp [h₂])]
  have hdrop : (code.assemble array handlers attributes).drop 8 =
      array ++ (handlers ++ attributes) := by
    rw [← List.drop_drop (i := 4) (j := 4), hbefore, List.drop_left' h₄]
  rw [arrayOf, hbefore, hdrop, List.take_left' h₄, BigEndian.decode_encode (by simpa using h),
    List.take_left]

theorem parse_eq_ok_iff [Build] {body : Bytes} {code : Code} :
    parse pool body = .ok code ↔ ∃ (array handlers attributes : Bytes) (layout : Layout),
      (array.length ≠ 0 ∧ array.length < 4294967296) ∧
      decode pool array = .ok ⟨code.instructions, layout⟩ ∧
      Bytes.Table (fun handler b => Handler.Proper layout.count handler ∧
        handler.write layout = .ok b) code.handlers handlers ∧
      Bytes.Table (fun a b => (CodeAttribute.Proper pool a ∧ a.widened layout = a) ∧
        ∃ raw : RawAttribute, a.Contents layout raw ∧ raw.write = .ok b)
        code.attributes attributes ∧
      body = code.assemble array handlers attributes := by
  rw [parse, eval_eq_ok_iff]
  have hlayout {array : Bytes} {list : Instructions} {layout : Layout}
      (h : decode pool array = .ok ⟨list, layout⟩) : layout.Ascending :=
    (decode_eq_ok_iff.mp h).1 ▸ Layout.ascending_ofInstructions list
  simp only [Code.read, bind_eq_ok_iff, ite_eq_ok_iff, malformed_eq_ok_iff, and_false, false_or,
    or_false, u16_eq_ok_iff, u32_eq_ok_iff, bytes_eq_ok_iff, ofExcept_eq_ok_iff,
    remaining_eq_ok_iff, pure_eq_ok_iff]
  constructor
  · rintro ⟨c', maxStack, m₁, hb₁, maxLocals, m₂, hb₂, length, m₃, hb₃, hzero, array, m₄,
      ⟨hlen, hb₄⟩, ⟨list, layout⟩, _, ⟨hdecode, rfl⟩, handlers, m₅, hhandlers, attributes, m₆,
      hattributes, _, _, ⟨rfl, rfl⟩, hleft, rfl, rfl⟩
    obtain ⟨b₅, hhandlers, hb₅⟩ :=
      ((Handler.takes_read (hlayout hdecode)).table _ _ _).mp hhandlers
    obtain ⟨b₆, hattributes, hb₆⟩ :=
      ((CodeAttribute.takes_read (hlayout hdecode)).table _ _ _).mp hattributes
    obtain ⟨hbody, -⟩ := Cursor.advances_start
      (hb₁.append (hb₂.append (hb₃.append (hb₄.append (hb₅.append hb₆)))))
    rw [List.eq_nil_of_length_eq_zero hleft, List.append_nil] at hbody
    refine ⟨array, b₅, b₆, layout, ⟨?_, ?_⟩, hdecode, hhandlers, hattributes, ?_⟩
    · rw [hlen]
      exact fun h => hzero (UInt32.toNat_inj.mp h)
    · rw [hlen]
      exact length.toNat_lt
    · rw [hbody, assemble, hlen]
      rfl
  · rintro ⟨array, b₅, b₆, layout, ⟨hne, hlt⟩, hdecode, hhandlers, hattributes, rfl⟩
    have htoNat : (UInt32.ofNat array.length).toNat = array.length :=
      UInt32.toNat_ofNat_of_lt' hlt
    obtain ⟨c', hadv, hend⟩ := Cursor.exists_advances_start (code.assemble array b₅ b₆)
    simp only [assemble, Cursor.advances_append] at hadv
    obtain ⟨m₁, hb₁, m₂, hb₂, m₃, hb₃, m₄, hb₄, m₅, hb₅, hb₆⟩ := hadv
    refine ⟨c', _, m₁, hb₁, _, m₂, hb₂, UInt32.ofNat array.length, m₃, ?_, ?_, array, m₄,
      ⟨htoNat.symm, hb₄⟩, _, m₄, ⟨hdecode, rfl⟩, _, m₅, ?_, _, c', ?_, _, c', ⟨rfl, rfl⟩, ?_, rfl,
      rfl⟩
    · rwa [Bytes.ofU32, htoNat]
    · exact fun h => hne (by rw [← htoNat, h]; rfl)
    · exact ((Handler.takes_read (hlayout hdecode)).table _ _ _).mpr ⟨b₅, hhandlers, hb₅⟩
    · exact ((CodeAttribute.takes_read (hlayout hdecode)).table _ _ _).mpr ⟨b₆, hattributes, hb₆⟩
    · rw [hend]
      rfl

theorem write_eq_ok_iff [Build] {method : String} {body : Bytes} {code : Code} :
    code.write method = .ok body ↔ ∃ (array handlers attributes : Bytes) (layout : Layout),
      encode method code.instructions = .ok ⟨array, layout⟩ ∧
      Bytes.ofTableM (Handler.write layout) code.handlers = .ok handlers ∧
      Bytes.ofTableM (CodeAttribute.write layout) code.attributes = .ok attributes ∧
      body = code.assemble array handlers attributes := by
  simp only [write, Bytes.bind_eq_ok_iff]
  constructor
  · rintro ⟨⟨array, layout⟩, hencode, handlers, hhandlers, attributes, hattributes, hbody⟩
    refine ⟨array, handlers, attributes, layout, hencode, hhandlers, hattributes, ?_⟩
    rw [← Except.ok.inj hbody, assemble]
    simp only [List.append_assoc]
  · rintro ⟨array, handlers, attributes, layout, hencode, hhandlers, hattributes, rfl⟩
    refine ⟨_, hencode, handlers, hhandlers, attributes, hattributes, ?_⟩
    rw [assemble]
    simp only [List.append_assoc]
    rfl

/-- Where offsets fit two bytes, the attributes that are written are the forms of the attributes. -/
theorem attributes_eq_ok_iff (h : layout.Ascending) (hfits : layout.Fits)
    {attributes : List CodeAttribute} (hproper : ∀ a ∈ attributes, a.Proper pool) {b : Bytes} :
    Bytes.Table (fun a b => ∃ raw : RawAttribute, CodeAttribute.Contents layout raw a ∧
        raw.write = .ok b) attributes b ↔
      attributes.length < 65536 ∧
        Bytes.ofTableM (CodeAttribute.write layout) attributes = .ok b := by
  have hform : ∀ a ∈ attributes, ∀ b : Bytes,
      (∃ raw : RawAttribute, a.Contents layout raw ∧ raw.write = .ok b) ↔
        a.write layout = .ok b := by
    intro a ha b
    simp only [CodeAttribute.contents_iff_toRaw h hfits (hproper a ha), CodeAttribute.write,
      Bytes.bind_eq_ok_iff]
  rw [← Bytes.table_iff_ofTableM]
  constructor
  · exact fun hb => hb.mono fun a ha b hab => (hform a ha b).mp hab
  · exact fun hb => hb.mono fun a ha b hab => (hform a ha b).mpr hab

theorem count_of_decode [Build] {array : Bytes} {list : Instructions}
    (h : decode pool array = .ok ⟨list, layout⟩) : layout.count = list.length := by
  rw [(decode_eq_ok_iff.mp h).1, Layout.count_ofInstructions]

/-- Reading gives proper bodies, their frames in the forms in which they are written. -/
theorem proper_of_parse [Build] {body : Bytes} {code : Code} (h : parse pool body = .ok code) :
    code.Proper pool ∧ code.widened = code := by
  obtain ⟨array, handlers, attributes, layout, ⟨hne, -⟩, hdecode, hhandlers, hattributes, -⟩ :=
    parse_eq_ok_iff.mp h
  have hcount := count_of_decode hdecode
  obtain ⟨hhandler, hhandlers⟩ := Bytes.table_and_iff.mp hhandlers
  obtain ⟨hattribute, hattributes⟩ := Bytes.table_and_iff.mp hattributes
  refine ⟨⟨?_, legible_of_decode hdecode, hhandlers.1, hcount ▸ hhandler, hattributes.1,
    fun a ha => (hattribute a ha).1⟩, ?_⟩
  · intro hnil
    have hlen := length_of_decode hdecode
    rw [(decode_eq_ok_iff.mp hdecode).1, hnil] at hlen
    exact hne hlen.symm
  · rw [widened, ← (decode_eq_ok_iff.mp hdecode).1,
      List.map_congr_left fun a ha => (hattribute a ha).2, List.map_id']

/-- A body whose code array is short enough, with zero padding, is written as it was read. -/
theorem write_of_parse [Build] {body : Bytes} {code : Code} (h : parse pool body = .ok code)
    (hlen : (arrayOf body).length ≤ 65535) (hzero : Decoded.ZeroPadded pool (arrayOf body))
    (method : String) : code.write method = .ok body := by
  obtain ⟨hproper, -⟩ := proper_of_parse h
  obtain ⟨array, handlers, attributes, layout, ⟨-, hlt⟩, hdecode, hhandlers, hattributes, rfl⟩ :=
    parse_eq_ok_iff.mp h
  rw [arrayOf_assemble code handlers attributes hlt] at hlen hzero
  have hlayout := (decode_eq_ok_iff.mp hdecode).1
  have hfits : layout.Fits := by
    rw [← length_of_decode hdecode, hlayout] at hlen
    exact hlayout ▸ Layout.fits_ofInstructions hlen
  -- The padding is that of the instructions read, so they are encoded as the same array.
  have hpadded : Decoded.ZeroPaddedFrom 0 code.instructions array :=
    zeroPaddedFrom_of_decode hdecode hzero
  have hencode : encode method code.instructions = .ok ⟨array, layout⟩ :=
    (encode_iff_decode.mpr ⟨hdecode, hlen, hpadded⟩).2
  have hattributes' := (Bytes.table_and_iff.mp hattributes).2
  rw [attributes_eq_ok_iff (hlayout ▸ Layout.ascending_ofInstructions _) hfits
    hproper.attributes] at hattributes'
  exact write_eq_ok_iff.mpr ⟨array, handlers, attributes, layout, hencode,
    (Bytes.table_iff_ofTableM.mp (Bytes.table_and_iff.mp hhandlers).2).2, hattributes'.2, rfl⟩

/-- What is written for a proper body is read as the body again, its frames in the forms in which
they are written. -/
theorem parse_of_write [Build] {body : Bytes} {code : Code} {method : String}
    (hproper : code.Proper pool)
    (h : code.write method = .ok body) : parse pool body = .ok code.widened := by
  obtain ⟨array, handlers, attributes, layout, hencode, hhandlers, hattributes, rfl⟩ :=
    write_eq_ok_iff.mp h
  obtain ⟨hdecode, hlen, -⟩ := encode_iff_decode.mp ⟨hproper.legible, hencode⟩
  have hlayout := (decode_eq_ok_iff.mp hdecode).1
  have hcount := count_of_decode hdecode
  have hascending : layout.Ascending := hlayout ▸ Layout.ascending_ofInstructions _
  have hfits : layout.Fits := by
    rw [← length_of_decode hdecode, hlayout] at hlen
    exact hlayout ▸ Layout.fits_ofInstructions hlen
  refine parse_eq_ok_iff.mpr ⟨array, handlers, attributes, layout, ⟨?_, by omega⟩, hdecode, ?_, ?_,
    rfl⟩
  · -- A code array without bytes spells no instructions.
    intro hzero
    obtain rfl := List.eq_nil_of_length_eq_zero hzero
    have hnil := Decoded.spelled_nil_iff.mp (decode_eq_ok_iff.mp hdecode).2.1
    exact hproper.nonempty (List.map_eq_nil_iff.mp hnil)
  · rw [Bytes.table_and_iff, Bytes.table_iff_ofTableM, hcount]
    exact ⟨hproper.handlers, hproper.handlers_lt, hhandlers⟩
  · have hforms := (attributes_eq_ok_iff hascending hfits hproper.attributes).mpr
      ⟨hproper.attributes_lt, hattributes⟩
    rw [widened, ← hlayout, Bytes.table_map_iff]
    refine hforms.mono fun a ha b ⟨raw, hcontents, hraw⟩ => ?_
    exact ⟨⟨CodeAttribute.proper_widened (hproper.attributes a ha),
      CodeAttribute.widened_widened a⟩, raw, CodeAttribute.contents_widened_iff.mpr hcontents, hraw⟩

end Code

end ClassGraft
