/-
Descriptors that are read.

A type is read off the front of a text exactly if the text opens with its descriptor
(`FieldType.read_eq_ok_iff`), so a text is parsed to exactly what is written as that text
(`FieldType.parse_eq_ok_iff`, `MethodDescriptor.parse_eq_ok_iff`), as long as the names in it can be
told apart from what follows them (`FieldType.WellNamed`).  The descriptor that a handler is called
by is one of those (`GraftConfig.parse_handlerDescriptor`).

So a text has at most one meaning, which is written as that text again (`ParsesExactly`,
`descriptors_parse_exactly`).
-/
import Mathlib
import ClassGraft.Descriptor.Basic
import ClassGraft.Graft.Config
import ClassGraft.Proofs.Reading

namespace ClassGraft

namespace FieldType

/-- Names are not empty and end where they are said to. -/
def WellNamed : FieldType → Prop
  | .object name => name.toList ≠ [] ∧ ';' ∉ name.toList
  | .array component => component.WellNamed
  | _ => True

variable {t : FieldType} {s rest : List Char}

theorem read_chars (h : t.WellNamed) (rest : List Char) :
    read (t.chars ++ rest) = .ok (t, rest) := by
  induction t with
  | object name =>
    obtain ⟨hne, hsemicolon⟩ := h
    have hname : ∀ c ∈ name.toList, decide (c ≠ ';') = true := by
      intro c hc
      rw [decide_eq_true_eq]
      rintro rfl
      exact hsemicolon hc
    have htake : (name.toList ++ ';' :: rest).takeWhile (· ≠ ';') = name.toList := by
      rw [List.takeWhile_append_of_pos hname]
      simp
    have hdrop : (name.toList ++ ';' :: rest).dropWhile (· ≠ ';') = ';' :: rest := by
      rw [List.dropWhile_append_of_pos hname]
      simp
    rw [chars, List.cons_append, List.append_assoc, List.singleton_append, read, htake, hdrop]
    cases hlist : name.toList with
    | nil => exact absurd hlist hne
    | cons c cs =>
      show Except.ok (FieldType.object (String.ofList (c :: cs)), rest) = _
      rw [← hlist, String.ofList_toList]
  | array component ih => rw [chars, List.cons_append, read, ih h]
  | _ => rfl

theorem chars_of_read (h : read s = .ok (t, rest)) : t.WellNamed ∧ s = t.chars ++ rest := by
  fun_induction read s generalizing t rest with
  | case10 after component rest' hread ih =>
    obtain ⟨rfl, rfl⟩ := Prod.mk.inj (Except.ok.inj h)
    obtain ⟨hcomponent, rfl⟩ := ih hread
    exact ⟨hcomponent, rfl⟩
  | case12 after c name d rest' hdrop htake =>
    obtain ⟨rfl, rfl⟩ := Prod.mk.inj (Except.ok.inj h)
    have hafter : after = c :: name ++ d :: rest' := by
      rw [← htake, ← hdrop, List.takeWhile_append_dropWhile]
    have hd : d = ';' := by
      have := List.head?_dropWhile_not (· ≠ ';') after
      rw [hdrop] at this
      simpa using this
    have hname : ∀ x ∈ c :: name, x ≠ ';' := by
      intro x hx
      rw [← htake] at hx
      simpa using List.mem_takeWhile_imp hx
    refine ⟨⟨?_, fun h => ?_⟩, ?_⟩
    · rw [String.toList_ofList]
      exact List.cons_ne_nil c name
    · rw [String.toList_ofList] at h
      exact hname _ h rfl
    · rw [chars, String.toList_ofList, hafter, hd]
      simp
  | case2 | case3 | case4 | case5 | case6 | case7 | case8 | case9 =>
    obtain ⟨rfl, rfl⟩ := Prod.mk.inj (Except.ok.inj h)
    exact ⟨trivial, rfl⟩
  | case11 after place hread ih => exact absurd h (by simp)
  | _ => exact absurd h (by simp)

/-- A type is read off the front of a text exactly if its descriptor stands there. -/
theorem read_eq_ok_iff : read s = .ok (t, rest) ↔ t.WellNamed ∧ s = t.chars ++ rest := by
  constructor
  · exact chars_of_read
  · rintro ⟨h, rfl⟩
    exact read_chars h rest

theorem parse_eq_ok_iff {descriptor : String} :
    parse descriptor = .ok t ↔ t.WellNamed ∧ descriptor.toList = t.chars := by
  have hread := @read_eq_ok_iff t descriptor.toList []
  rw [List.append_nil] at hread
  rw [← hread, parse]
  rcases read descriptor.toList with place | ⟨u, _ | ⟨c, cs⟩⟩
  · simp
  · simp
  · simp

/-- No descriptor opens with what closes a list of parameters. -/
theorem chars_append_ne (t : FieldType) (s s' : List Char) : t.chars ++ s ≠ ')' :: s' := by
  cases t <;> simp [chars]

end FieldType

namespace MethodDescriptor

/-- The names in all types are well formed. -/
def WellNamed (d : MethodDescriptor) : Prop :=
  (∀ t ∈ d.params, t.WellNamed) ∧ ∀ t ∈ d.result, t.WellNamed

variable {ts : List FieldType} {s rest : List Char}

theorem readParams_of_read {t : FieldType} (h : FieldType.read s = .ok (t, rest)) :
    readParams s = (readParams rest).map fun (ts, rest) => (t :: ts, rest) := by
  rw [readParams.eq_def]
  split
  · exact absurd (FieldType.chars_of_read h).2.symm (FieldType.chars_append_ne t rest _)
  · split
    · rename_i u rest' hread
      obtain ⟨rfl, rfl⟩ := Prod.mk.inj (Except.ok.inj (hread.symm.trans h))
      rfl
    · rename_i place hread
      exact absurd (hread.symm.trans h) (by simp)

theorem readParams_chars (h : ∀ t ∈ ts, t.WellNamed) (rest : List Char) :
    readParams (ts.flatMap FieldType.chars ++ ')' :: rest) = some (ts, rest) := by
  induction ts with
  | nil => rw [List.flatMap_nil, List.nil_append, readParams]
  | cons t ts ih =>
    obtain ⟨ht, hts⟩ := List.forall_mem_cons.mp h
    rw [List.flatMap_cons, List.append_assoc, readParams_of_read (FieldType.read_chars ht _),
      ih hts]
    rfl

theorem chars_of_readParams (h : readParams s = some (ts, rest)) :
    (∀ t ∈ ts, t.WellNamed) ∧ s = ts.flatMap FieldType.chars ++ ')' :: rest := by
  fun_induction readParams s generalizing ts rest with
  | case1 rest' =>
    obtain ⟨rfl, rfl⟩ := Prod.mk.inj (Option.some.inj h)
    exact ⟨by simp, rfl⟩
  | case2 s hclose t rest' hread hlt ih =>
    rw [Option.map_eq_some_iff] at h
    obtain ⟨⟨us, rest''⟩, hus, h⟩ := h
    obtain ⟨rfl, rfl⟩ := Prod.mk.inj h
    obtain ⟨ht, rfl⟩ := FieldType.chars_of_read hread
    obtain ⟨hnamed, rfl⟩ := ih hus
    refine ⟨List.forall_mem_cons.mpr ⟨ht, hnamed⟩, ?_⟩
    rw [List.flatMap_cons, List.append_assoc]
  | case3 s hclose place hread => exact absurd h (by simp)

theorem readResult_eq_some_iff {r : Option FieldType} :
    readResult s = some r ↔ (∀ t ∈ r, t.WellNamed) ∧ s = resultChars r := by
  rw [readResult.eq_def]
  split
  · cases r with
    | none => simp [resultChars]
    | some t => cases t <;> simp [resultChars, FieldType.chars]
  · -- Where no `V` stands, a type has to.
    rename_i hvoid
    cases r with
    | none =>
      have hs : s ≠ resultChars none := hvoid
      simp only [hs, and_false, iff_false]
      split
      all_goals simp
    | some t =>
      have hread := @FieldType.read_eq_ok_iff t s []
      rw [List.append_nil] at hread
      simp only [resultChars, Option.mem_some_iff, forall_eq']
      rw [← hread]
      rcases FieldType.read s with place | ⟨u, _ | ⟨c, cs⟩⟩
      all_goals simp

/-- A text is parsed to exactly what is written as that text. -/
theorem parse_eq_ok_iff {d : MethodDescriptor} {descriptor : String} :
    parse descriptor = .ok d ↔ d.WellNamed ∧ descriptor.toList = d.chars := by
  have hparse : parse descriptor = .ok d ↔ ofChars? descriptor.toList = some d := by
    rw [parse]
    cases ofChars? descriptor.toList <;> simp
  rw [hparse]
  obtain ⟨params, result⟩ := d
  constructor
  · intro h
    rw [ofChars?.eq_def] at h
    split at h
    · rename_i s hs
      simp only [Option.bind_eq_bind, Option.bind_eq_some_iff] at h
      obtain ⟨⟨ts, rest⟩, hparams, r, hresult, h⟩ := h
      obtain ⟨rfl, rfl⟩ := MethodDescriptor.mk.inj (Option.some.inj h)
      obtain ⟨hnamed, rfl⟩ := chars_of_readParams hparams
      obtain ⟨hresultNamed, rfl⟩ := readResult_eq_some_iff.mp hresult
      exact ⟨⟨hnamed, hresultNamed⟩, hs⟩
    · exact absurd h (by simp)
  · rintro ⟨⟨hparams, hresult⟩, h⟩
    have hread : readResult (resultChars result) = some result :=
      readResult_eq_some_iff.mpr ⟨hresult, rfl⟩
    rw [h, chars, ofChars?]
    simp only [readParams_chars hparams, Option.bind_eq_bind, Option.bind_some, hread]
    rfl

end MethodDescriptor

namespace GraftConfig

theorem toList_handlerType (config : GraftConfig) :
    config.handlerType.toList = 'L' :: (config.handlerClass.toList ++ [';']) := by
  have htoString : ∀ text : String, toString text = text := fun _ => rfl
  simp [handlerType, htoString]

theorem toList_handlerDescriptor (world player : String) :
    (handlerDescriptor world player).toList =
      '(' :: (world.toList ++ player.toList ++ ['I', 'I', 'I', 'Z', ')', 'V']) := by
  have htoString : ∀ text : String, toString text = text := fun _ => rfl
  simp [handlerDescriptor, htoString]

/-- The descriptor of a handler names six parameters and no result. -/
theorem parse_handlerDescriptor {world player : String} {w p : FieldType}
    (hw : FieldType.parse world = .ok w) (hp : FieldType.parse player = .ok p) :
    MethodDescriptor.parse (handlerDescriptor world player) =
      .ok ⟨[w, p, .int, .int, .int, .boolean], none⟩ := by
  obtain ⟨hw, hworld⟩ := FieldType.parse_eq_ok_iff.mp hw
  obtain ⟨hp, hplayer⟩ := FieldType.parse_eq_ok_iff.mp hp
  rw [MethodDescriptor.parse_eq_ok_iff]
  refine ⟨⟨?_, by simp⟩, ?_⟩
  · simpa [FieldType.WellNamed] using ⟨hw, hp⟩
  · rw [toList_handlerDescriptor, hworld, hplayer]
    simp [MethodDescriptor.chars, FieldType.chars, MethodDescriptor.resultChars]

/-- A name that can stand in a descriptor is the name of a handler's type. -/
theorem parse_handlerType {config : GraftConfig} (hne : config.handlerClass ≠ "")
    (hsemicolon : ';' ∉ config.handlerClass.toList) :
    FieldType.parse config.handlerType = .ok (.object config.handlerClass) := by
  refine FieldType.parse_eq_ok_iff.mpr ⟨⟨?_, hsemicolon⟩, toList_handlerType config⟩
  exact fun hnil => hne (String.toList_eq_nil_iff.mp hnil)

/-- A type that is read from the descriptor of the handler's field is that of an object. -/
theorem kind_of_parse_handlerType {config : GraftConfig} {t : FieldType}
    (h : FieldType.parse config.handlerType = .ok t) : t.kind = .reference := by
  -- No other descriptor begins with an `L`.
  obtain ⟨-, h⟩ := FieldType.parse_eq_ok_iff.mp h
  rw [toList_handlerType] at h
  cases t with
  | object | array => rfl
  | _ => exact absurd h (by simp [FieldType.chars])

end GraftConfig

/-! ### Texts and what they are parsed to -/

/-- Whether the texts that are parsed are those of the proper values, each of which is parsed to
itself. -/
structure ParsesExactly {α : Type} (parse : String → Except Fault α) (text : α → String)
    (proper : α → Prop) : Prop where
  accepts : ∀ s x, parse s = .ok x ↔ proper x ∧ text x = s
  text_of_parse : ∀ s x, parse s = .ok x → text x = s
  parse_text : ∀ x, proper x → parse (text x) = .ok x
  injOn : Set.InjOn text {x | proper x}

/-- Of two values with one text both are what the text is parsed to. -/
theorem ParsesExactly.of_accepts {α : Type} {parse : String → Except Fault α} {text : α → String}
    {proper : α → Prop} (h : ∀ s x, parse s = .ok x ↔ proper x ∧ text x = s) :
    ParsesExactly parse text proper := by
  have hparse : ∀ x, proper x → parse (text x) = .ok x := by
    intro x hx
    exact (h _ x).mpr ⟨hx, rfl⟩
  refine ⟨h, fun s x hs => ((h s x).mp hs).2, hparse, ?_⟩
  intro x hx y hy hxy
  have hy : parse (text x) = .ok y := hxy ▸ hparse y hy
  exact Except.ok.inj ((hparse x hx).symm.trans hy)

theorem ofList_eq_iff {chars : List Char} {s : String} :
    String.ofList chars = s ↔ s.toList = chars := by
  constructor
  · rintro rfl
    exact String.toList_ofList
  · rintro rfl
    exact String.ofList_toList

theorem FieldType.parsesExactly : ParsesExactly parse text WellNamed := by
  refine .of_accepts fun s t => ?_
  rw [parse_eq_ok_iff, text, ofList_eq_iff]

theorem MethodDescriptor.parsesExactly : ParsesExactly parse text WellNamed := by
  refine .of_accepts fun s d => ?_
  rw [parse_eq_ok_iff, text, ofList_eq_iff]

/-- The texts of descriptors are accepted and no others, each has one meaning, and nothing of it is
lost.  So the descriptor of a handler that is put together from those of two fields means these two
fields, three coordinates and a flag. -/
theorem descriptors_parse_exactly :
    ParsesExactly MethodDescriptor.parse MethodDescriptor.text MethodDescriptor.WellNamed ∧
    ParsesExactly FieldType.parse FieldType.text FieldType.WellNamed ∧
    ∀ world player w p, FieldType.parse world = .ok w → FieldType.parse player = .ok p →
      MethodDescriptor.parse (GraftConfig.handlerDescriptor world player) =
        .ok ⟨[w, p, .int, .int, .int, .boolean], none⟩ :=
  ⟨MethodDescriptor.parsesExactly, FieldType.parsesExactly,
    fun _ _ _ _ => GraftConfig.parse_handlerDescriptor⟩

/-- The name of an object may hold what closes the parameters, and the letters of other types. -/
theorem descriptors_parse_exactly_oddNames :
    FieldType.parse "L)V(I;" = .ok (.object ")V(I") ∧
    FieldType.parse "[[LJ;" = .ok (.array (.array (.object "J"))) ∧
    MethodDescriptor.parse "(L)V(I;[[LJ;IIIZ)V" =
      .ok ⟨[.object ")V(I", .array (.array (.object "J")), .int, .int, .int, .boolean], none⟩ := by
  have hworld : FieldType.parse "L)V(I;" = .ok (.object ")V(I") := by decide
  have hplayer : FieldType.parse "[[LJ;" = .ok (.array (.array (.object "J"))) := by decide
  have hdescriptor : GraftConfig.handlerDescriptor "L)V(I;" "[[LJ;" = "(L)V(I;[[LJ;IIIZ)V" := by
    decide +kernel
  obtain ⟨-, -, hhandler⟩ := descriptors_parse_exactly
  rw [← hdescriptor]
  exact ⟨hworld, hplayer, hhandler _ _ _ _ hworld hplayer⟩

end ClassGraft
