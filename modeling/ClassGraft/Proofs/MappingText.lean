/-
What mapping text says.

A line is taken without the blanks around it.  If nothing is left, or a remark, it is silent
(`MappingRecord.Silent`); the words of any other line have to spell a record
(`MappingRecord.Spells`).  Lines that all do so list their records in order
(`MappingRecord.Lists`), and the first line that does not is reported.

Mappings that are read answer as a look through the list of records from its end would, whatever is
asked for (`Mappings.find?_ofRecords`), and they count each key once (`Mappings.size_ofRecords`).
`Mappings.last_record_holds` puts this together for the text.
-/
import ClassGraft.Naming.Remapper
import ClassGraft.Proofs.Reading
import ClassGraft.Proofs.Words

namespace ClassGraft

/-! ### Records -/

namespace MappingRecord

/-- Whether a path is made up of an owner and a name around its last slash. -/
structure IsPath (path : List Char) (owner name : String) : Prop where
  eq : path = owner.toList ++ '/' :: name.toList
  owner_ne : owner ≠ ""
  name_ne : name ≠ ""
  last : '/' ∉ name.toList

theorem isPath_of_splitPath? {path : List Char} {owner name : String}
    (h : splitPath? path = some (owner, name)) : IsPath path owner name := by
  have hpath := List.takeWhile_append_dropWhile (p := (· ≠ '/')) (l := path.reverse)
  have hlast : ∀ c ∈ path.reverse.takeWhile (· ≠ '/'), c ≠ '/' := by
    intro c hc
    simpa using List.mem_takeWhile_imp hc
  rw [splitPath?] at h
  generalize path.reverse.takeWhile (· ≠ '/') = front at h hpath hlast
  generalize path.reverse.dropWhile (· ≠ '/') = back at h hpath
  split at h
  · next o os =>
    obtain ⟨hname, h⟩ := Option.ite_none_left_eq_some.mp h
    obtain ⟨rfl, rfl⟩ := Prod.mk.inj (Option.some.inj h)
    refine ⟨?_, ?_, ?_, ?_⟩
    · rw [← path.reverse_reverse, ← hpath]
      simp
    · simp [← String.toList_eq_nil_iff]
    · simpa [← String.toList_eq_nil_iff] using hname
    · rw [String.toList_ofList, List.mem_reverse]
      exact fun hslash => hlast _ hslash rfl
  · exact absurd h (by simp)

theorem IsPath.splitPath?_eq {path : List Char} {owner name : String}
    (h : IsPath path owner name) : splitPath? path = some (owner, name) := by
  obtain ⟨rfl, howner, hname, hlast⟩ := h
  have hletters : ∀ c ∈ name.toList.reverse, decide (c ≠ '/') = true := by
    intro c hc
    rw [decide_eq_true_eq]
    rintro rfl
    exact hlast (List.mem_reverse.mp hc)
  have hreverse : (owner.toList ++ '/' :: name.toList).reverse =
      name.toList.reverse ++ '/' :: owner.toList.reverse := by simp
  have htake : (owner.toList ++ '/' :: name.toList).reverse.takeWhile (· ≠ '/') =
      name.toList.reverse := by
    rw [hreverse, List.takeWhile_append_of_pos hletters]
    simp
  have hdrop : (owner.toList ++ '/' :: name.toList).reverse.dropWhile (· ≠ '/') =
      '/' :: owner.toList.reverse := by
    rw [hreverse, List.dropWhile_append_of_pos hletters]
    simp
  have hne : owner.toList.reverse ≠ [] := by
    simpa [String.toList_eq_nil_iff] using howner
  obtain ⟨o, os, hback⟩ := List.exists_cons_of_ne_nil hne
  rw [splitPath?, htake, hdrop, hback]
  show (if name.toList.reverse.reverse.isEmpty then none else
    some (String.ofList (o :: os).reverse, String.ofList name.toList.reverse.reverse)) = _
  rw [← hback]
  simp [String.toList_eq_nil_iff, hname]

/-- Whether words spell a record. -/
inductive Spells : List (List Char) → MappingRecord → Prop
  | package (obfuscated named : List Char) : Spells [['P', 'K', ':'], obfuscated, named] .package
  | classRecord (obfuscated named : String) :
    Spells [['C', 'L', ':'], obfuscated.toList, named.toList] (.classRecord obfuscated named)
  | field {path named : List Char} {owner name owner' target : String} :
    IsPath path owner name → IsPath named owner' target →
      Spells [['F', 'D', ':'], path, named] (.field owner name target)
  | method {path named : List Char} {owner name owner' target : String} (descriptor : String)
    (descriptor' : List Char) : IsPath path owner name → IsPath named owner' target →
      Spells [['M', 'D', ':'], path, descriptor.toList, named, descriptor']
        (.method owner name descriptor target)

theorem member_eq_ok_iff {sort : MemberSort} {path : List Char} {owner name : String} :
    member sort path = .ok (owner, name) ↔ IsPath path owner name := by
  have hsplit : splitPath? path = some (owner, name) ↔ IsPath path owner name :=
    ⟨isPath_of_splitPath?, IsPath.splitPath?_eq⟩
  rw [← hsplit, member]
  cases splitPath? path <;> simp

theorem spells_of_ofWords {kind : List Char} {values : List (List Char)} {r : MappingRecord}
    (h : ofWords kind values = .ok r) : Spells (kind :: values) r := by
  have hletters : ∀ text : String, String.ofList kind = text → kind = text.toList := by
    rintro _ rfl
    exact String.toList_ofList.symm
  rw [ofWords.eq_def] at h
  dsimp only at h
  split at h
  · next hkind =>
    split at h
    · obtain rfl := Except.ok.inj h
      rw [hletters _ hkind]
      exact .package _ _
    · exact absurd h (by simp)
  · next hkind =>
    split at h
    · next obfuscated named =>
      obtain rfl := Except.ok.inj h
      rw [hletters _ hkind]
      simpa using Spells.classRecord (String.ofList obfuscated) (String.ofList named)
    · exact absurd h (by simp)
  · next hkind =>
    split at h
    · next path named =>
      obtain ⟨⟨owner, name⟩, hpath, h⟩ := Bytes.bind_eq_ok_iff.mp h
      obtain ⟨⟨owner', target⟩, hnamed, h⟩ := Bytes.bind_eq_ok_iff.mp h
      obtain rfl := Except.ok.inj h
      rw [hletters _ hkind]
      exact .field (member_eq_ok_iff.mp hpath) (member_eq_ok_iff.mp hnamed)
    · exact absurd h (by simp)
  · next hkind =>
    split at h
    · next path descriptor named descriptor' =>
      obtain ⟨⟨owner, name⟩, hpath, h⟩ := Bytes.bind_eq_ok_iff.mp h
      obtain ⟨⟨owner', target⟩, hnamed, h⟩ := Bytes.bind_eq_ok_iff.mp h
      obtain rfl := Except.ok.inj h
      rw [hletters _ hkind]
      simpa using Spells.method (String.ofList descriptor) descriptor'
        (member_eq_ok_iff.mp hpath) (member_eq_ok_iff.mp hnamed)
    · exact absurd h (by simp)
  · exact absurd h (by simp)

/-- A record is what the words of a line spell. -/
theorem ofWords_eq_ok_iff {kind : List Char} {values : List (List Char)} {r : MappingRecord} :
    ofWords kind values = .ok r ↔ Spells (kind :: values) r := by
  constructor
  · exact spells_of_ofWords
  · intro h
    cases h with
    | package obfuscated named => simp [ofWords]
    | classRecord obfuscated named => simp [ofWords]
    | field hpath hnamed =>
      simp [ofWords, member_eq_ok_iff.mpr hpath, member_eq_ok_iff.mpr hnamed]
      rfl
    | method descriptor descriptor' hpath hnamed =>
      simp [ofWords, member_eq_ok_iff.mpr hpath, member_eq_ok_iff.mpr hnamed]
      rfl

/-! ### Lines that list records -/

/-- Whether a line says nothing: it is blank, or a remark. -/
def Silent (line : List Char) : Prop :=
  Text.trim line = [] ∨ (Text.trim line).head? = some '#'

/-- Whether a line spells a record. -/
def SpelledBy (r : MappingRecord) (line : List Char) : Prop :=
  ¬Silent line ∧ Spells (((Text.trim line).splitOnP Text.isBlank).filter (· ≠ [])) r

/-- Whether a line may stand in mapping text. -/
def Sound (line : List Char) : Prop := Silent line ∨ ∃ r, SpelledBy r line

/-- Whether lines list records, one after the other. -/
inductive Lists : List (List Char) → List MappingRecord → Prop
  | nil : Lists [] []
  | silent {line : List Char} {lines : List (List Char)} {records : List MappingRecord} :
    Silent line → Lists lines records → Lists (line :: lines) records
  | record {r : MappingRecord} {line : List Char} {lines : List (List Char)}
    {records : List MappingRecord} :
    SpelledBy r line → Lists lines records → Lists (line :: lines) (r :: records)

variable {line : List Char} {lines : List (List Char)} {records : List MappingRecord}

theorem ofLine_of_silent (h : Silent line) : ofLine line = .ok none := by
  rw [ofLine.eq_def, ← Text.words_trim]
  rcases htrim : Text.trim line with _ | ⟨c, rest⟩
  · rfl
  · obtain ⟨word, more, hwords⟩ := Text.exists_words_cons (Text.isBlank_of_trim_eq_cons htrim) rest
    have hhash : c = '#' := by simpa [Silent, htrim] using h
    rw [hwords]
    dsimp only
    rw [if_pos (by rw [hhash]; rfl)]

theorem ofLine_of_not_silent (h : ¬Silent line) : ∃ kind values,
    ((Text.trim line).splitOnP Text.isBlank).filter (· ≠ []) = kind :: values ∧
      ofLine line = (ofWords kind values).map some := by
  rw [ofLine.eq_def, ← Text.words_trim, ← Text.words_eq_filter]
  rcases htrim : Text.trim line with _ | ⟨c, rest⟩
  · exact absurd (.inl htrim) h
  · obtain ⟨word, more, hwords⟩ := Text.exists_words_cons (Text.isBlank_of_trim_eq_cons htrim) rest
    have hhash : ¬(c :: word).head? = some '#' := by simpa [Silent, htrim] using h
    rw [hwords]
    dsimp only
    exact ⟨c :: word, more, rfl, if_neg hhash⟩

theorem ofLine_eq_none_iff : ofLine line = .ok none ↔ Silent line := by
  refine ⟨fun h => ?_, ofLine_of_silent⟩
  by_contra hsilent
  obtain ⟨kind, values, -, hline⟩ := ofLine_of_not_silent hsilent
  rw [hline] at h
  cases hwords : ofWords kind values with
  | error cause => exact absurd h (by simp [hwords, Except.map])
  | ok r => exact absurd h (by simp [hwords, Except.map])

theorem ofLine_eq_some_iff {r : MappingRecord} :
    ofLine line = .ok (some r) ↔ SpelledBy r line := by
  by_cases hsilent : Silent line
  · rw [ofLine_of_silent hsilent, SpelledBy]
    simp [hsilent]
  · obtain ⟨kind, values, hwords, hline⟩ := ofLine_of_not_silent hsilent
    rw [hline, SpelledBy, hwords, ← ofWords_eq_ok_iff]
    cases ofWords kind values <;> simp [hsilent, Except.map]

theorem ofLine_error_iff : (∃ cause, ofLine line = .error cause) ↔ ¬Sound line := by
  have hsound : Sound line ↔ ∃ answer, ofLine line = .ok answer := by
    simp only [Sound, ← ofLine_eq_none_iff, ← ofLine_eq_some_iff, Option.exists]
  rw [hsound]
  cases ofLine line <;> simp

/-- The records of lines are those that the lines list. -/
theorem ofLines_eq_ok_iff {number : Nat} : ofLines number lines = .ok records ↔
    Lists lines records := by
  constructor
  · intro h
    induction lines generalizing number records with
    | nil =>
      obtain rfl := Except.ok.inj h
      exact .nil
    | cons line lines ih =>
      rw [ofLines] at h
      split at h
      · exact absurd h (by simp)
      · next hline => exact .silent (ofLine_eq_none_iff.mp hline) (ih h)
      · next r hline =>
        cases hrest : ofLines (number + 1) lines with
        | error fault =>
          rw [hrest] at h
          exact absurd h (by simp [Functor.map, Except.map])
        | ok rest =>
          rw [hrest] at h
          obtain rfl := Except.ok.inj h
          exact .record (ofLine_eq_some_iff.mp hline) (ih hrest)
  · intro h
    induction h generalizing number with
    | nil => rfl
    | silent hline _ ih =>
      rw [ofLines, ofLine_of_silent hline]
      exact ih
    | record hline _ ih =>
      rw [ofLines, ofLine_eq_some_iff.mpr hline]
      dsimp only
      rw [ih]
      rfl

/-- The first line that may not stand where it does is the one that is reported. -/
theorem ofLines_eq_error {number : Nat} {fault : Fault}
    (h : ofLines number lines = .error fault) : ∃ n line cause, lines[n]? = some line ∧
      ¬Sound line ∧ (∀ earlier ∈ lines.take n, Sound earlier) ∧
      ofLine line = .error cause ∧ fault = .invalidMapping (number + n) cause := by
  induction lines generalizing number with
  | nil => exact absurd h (by simp [ofLines])
  | cons line lines ih =>
    -- A line that is passed over moves the reported one by one place.
    have hbehind : Sound line → ofLines (number + 1) lines = .error fault →
        ∃ n line' cause, (line :: lines)[n]? = some line' ∧ ¬Sound line' ∧
          (∀ earlier ∈ (line :: lines).take n, Sound earlier) ∧
          ofLine line' = .error cause ∧ fault = .invalidMapping (number + n) cause := by
      intro hline hrest
      obtain ⟨n, line', cause, hget, hsound, hearlier, hcause, hfault⟩ := ih hrest
      refine ⟨n + 1, line', cause, hget, hsound, ?_, hcause, ?_⟩
      · rw [List.take_succ_cons]
        exact List.forall_mem_cons.mpr ⟨hline, hearlier⟩
      · rw [hfault, Nat.add_assoc, Nat.add_comm 1 n]
    rw [ofLines] at h
    split at h
    · next cause hline =>
      obtain rfl := Except.error.inj h
      exact ⟨0, line, cause, rfl, ofLine_error_iff.mp ⟨cause, hline⟩, by simp, hline, rfl⟩
    · next hline => exact hbehind (.inl (ofLine_eq_none_iff.mp hline)) h
    · next r hline =>
      refine hbehind (.inr ⟨r, ofLine_eq_some_iff.mp hline⟩) ?_
      cases hrest : ofLines (number + 1) lines with
      | error fault' =>
        rw [hrest] at h
        exact h
      | ok rest =>
        rw [hrest] at h
        exact absurd h (by simp [Functor.map, Except.map])

/-- Lines list records exactly if each of them may stand there. -/
theorem exists_lists_iff : (∃ records, Lists lines records) ↔ ∀ line ∈ lines, Sound line := by
  constructor
  · rintro ⟨records, h⟩
    induction h with
    | nil => simp
    | silent hline _ ih => exact List.forall_mem_cons.mpr ⟨.inl hline, ih⟩
    | record hline _ ih => exact List.forall_mem_cons.mpr ⟨.inr ⟨_, hline⟩, ih⟩
  · intro h
    induction lines with
    | nil => exact ⟨[], .nil⟩
    | cons line lines ih =>
      obtain ⟨hline, hlines⟩ := List.forall_mem_cons.mp h
      obtain ⟨records, hrecords⟩ := ih hlines
      rcases hline with hline | ⟨r, hline⟩
      · exact ⟨records, .silent hline hrecords⟩
      · exact ⟨r :: records, .record hline hrecords⟩

/-- An empty line at the end does not matter. -/
theorem ofLines_append_empty (number : Nat) (lines : List (List Char)) :
    ofLines number (lines ++ [[]]) = ofLines number lines := by
  induction lines generalizing number with
  | nil => rfl
  | cons line lines ih => simp only [List.cons_append, ofLines, ih]

/-- The lines of a text may as well be its pieces between line feeds. -/
theorem ofText_eq (text : String) : ofText text = ofLines 1 (text.toList.splitOn '\n') := by
  rw [ofText]
  rcases Text.splitOn_eq_lines text.toList with h | h
  · rw [h]
  · rw [h, ofLines_append_empty]

/-! ### Keys -/

/-- What mappings are asked for. -/
inductive Key where
  | ofClass (name : String)
  | ofField (owner name : String)
  | ofMethod (owner name descriptor : String)
  deriving DecidableEq

/-- The key of a record with its target; a package has none. -/
def entry? : MappingRecord → Option (Key × String)
  | .package => none
  | .classRecord obfuscated named => some (.ofClass obfuscated, named)
  | .field owner name target => some (.ofField owner name, target)
  | .method owner name descriptor target => some (.ofMethod owner name descriptor, target)

/-- What a record has under a key. -/
def target? (r : MappingRecord) (key : Key) : Option String :=
  r.entry?.bind fun entry => if entry.1 = key then some entry.2 else none

/-- What the last record of a key has under it. -/
def last? (records : List MappingRecord) (key : Key) : Option String :=
  records.reverse.findSome? (target? · key)

/-- The keys of records, in order. -/
def keys (records : List MappingRecord) : List Key := (records.filterMap entry?).map Prod.fst

theorem last?_append_singleton (records : List MappingRecord) (r : MappingRecord) (key : Key) :
    last? (records ++ [r]) key = (r.target? key).or (last? records key) := by
  rw [last?, List.reverse_append, List.reverse_singleton, List.singleton_append,
    List.findSome?_cons, last?]
  cases r.target? key <;> rfl

theorem keys_append_singleton (records : List MappingRecord) (r : MappingRecord) :
    keys (records ++ [r]) = keys records ++ r.entry?.toList.map Prod.fst := by
  rw [keys, List.filterMap_append, List.map_append, keys]
  cases hentry : r.entry? <;> simp [hentry]

theorem isSome_target?_iff {r : MappingRecord} {key : Key} :
    (r.target? key).isSome ↔ ∃ target, r.entry? = some (key, target) := by
  rw [target?]
  cases hentry : r.entry? with
  | none => simp
  | some entry =>
    obtain ⟨key', target⟩ := entry
    by_cases hkey : key' = key <;> simp [hkey]

theorem isSome_last?_iff {key : Key} : (last? records key).isSome ↔ key ∈ keys records := by
  rw [last?, List.findSome?_isSome_iff, keys]
  simp only [List.mem_reverse, isSome_target?_iff, List.mem_map, List.mem_filterMap, Prod.exists,
    exists_and_right, exists_eq_right]
  exact ⟨fun ⟨r, hr, target, h⟩ => ⟨target, r, hr, h⟩, fun ⟨target, r, hr, h⟩ => ⟨r, hr, target, h⟩⟩

end MappingRecord

/-! ### Mappings -/

namespace Mappings

open MappingRecord

/-- What mappings have under a key. -/
def find? (m : Mappings) : Key → Option String
  | .ofClass name => m.classes[name]?
  | .ofField owner name => m.fields[(owner, name)]?
  | .ofMethod owner name descriptor => m.methods[(owner, name, descriptor)]?

/-- One more record holds for its key. -/
theorem find?_insert (m : Mappings) (r : MappingRecord) (key : Key) :
    (m.insert r).find? key = (r.target? key).or (m.find? key) := by
  -- A record only reaches the keys of its own sort.
  cases r with
  | package => rfl
  | classRecord obfuscated named =>
    cases key with
    | ofClass name =>
      simp only [insert, find?, target?, entry?, Std.HashMap.getElem?_insert, beq_iff_eq,
        Option.bind_some, Key.ofClass.injEq]
      split <;> rfl
    | ofField | ofMethod => simp [insert, find?, target?, entry?]
  | field owner name target =>
    cases key with
    | ofField owner' name' =>
      simp only [insert, find?, target?, entry?, Std.HashMap.getElem?_insert, beq_iff_eq,
        Option.bind_some, Key.ofField.injEq, Prod.mk.injEq]
      split <;> rfl
    | ofClass | ofMethod => simp [insert, find?, target?, entry?]
  | method owner name descriptor target =>
    cases key with
    | ofMethod owner' name' descriptor' =>
      simp only [insert, find?, target?, entry?, Std.HashMap.getElem?_insert, beq_iff_eq,
        Option.bind_some, Key.ofMethod.injEq, Prod.mk.injEq]
      split <;> rfl
    | ofClass | ofField => simp [insert, find?, target?, entry?]

/-- One more record counts if its key is new. -/
theorem size_insert (m : Mappings) (r : MappingRecord) : (m.insert r).size =
    match r.entry? with
    | none => m.size
    | some (key, _) => if (m.find? key).isSome then m.size else m.size + 1 := by
  cases r with
  | package => rfl
  | classRecord | field | method =>
    simp only [insert, size, entry?, find?, Std.HashMap.size_insert,
      Std.HashMap.isSome_getElem?_iff_mem]
    split <;> omega

theorem ofRecords_append_singleton (records : List MappingRecord) (r : MappingRecord) :
    ofRecords (records ++ [r]) = (ofRecords records).insert r := by
  rw [ofRecords, List.foldl_append]
  rfl

/-- Mappings answer with the last record of a key. -/
theorem find?_ofRecords (records : List MappingRecord) (key : Key) :
    (ofRecords records).find? key = last? records key := by
  induction records using List.reverseRecOn with
  | nil =>
    cases key
    all_goals exact Std.HashMap.getElem?_empty
  | append_singleton records r ih =>
    rw [ofRecords_append_singleton, find?_insert, last?_append_singleton, ih]

/-- Mappings count the keys of their records, each once. -/
theorem size_ofRecords (records : List MappingRecord) :
    (ofRecords records).size = (keys records).toFinset.card := by
  induction records using List.reverseRecOn with
  | nil => rfl
  | append_singleton records r ih =>
    rw [ofRecords_append_singleton, size_insert, ih, keys_append_singleton]
    cases r.entry? with
    | none => simp
    | some entry =>
      obtain ⟨key, target⟩ := entry
      have hkeys : (keys records ++ [key]).toFinset =
          Insert.insert key (keys records).toFinset := by
        ext k
        simp
      show (if ((ofRecords records).find? key).isSome then _ else _) =
        (keys records ++ [key]).toFinset.card
      rw [hkeys, find?_ofRecords]
      split
      · next hmem =>
        rw [Finset.insert_eq_of_mem (List.mem_toFinset.mpr (isSome_last?_iff.mp hmem))]
      · next hmem =>
        have hnew : key ∉ (keys records).toFinset := by
          rwa [List.mem_toFinset, ← isSome_last?_iff]
        rw [Finset.card_insert_of_notMem hnew]

/-- Mapping text is read exactly if each of its lines may stand there, and the first line that may
not is the one that is reported.  What is read answers with the last record of whatever it is asked
for, leaves alone what has no record, and counts each key once. -/
theorem last_record_holds (text : String) :
    let lines := text.toList.splitOn '\n'
    ((∃ m, parse text = .ok m) ↔ ∀ line ∈ lines, Sound line) ∧
    match parse text with
    | .ok m => ∃ records, Lists lines records ∧
        (∀ name, m.className? name = last? records (.ofClass name)) ∧
        (∀ owner name descriptor, m.remapper.fieldName owner name descriptor =
          (last? records (.ofField owner name)).getD name) ∧
        (∀ owner name descriptor, m.remapper.methodName owner name descriptor =
          (last? records (.ofMethod owner name descriptor)).getD name) ∧
        m.size = (keys records).toFinset.card
    | .error fault => ∃ n line cause, lines[n]? = some line ∧ ¬Sound line ∧
        (∀ earlier ∈ lines.take n, Sound earlier) ∧
        ofLine line = .error cause ∧ fault = .invalidMapping (n + 1) cause := by
  intro lines
  rw [parse, ofText_eq]
  cases hread : ofLines 1 lines with
  | ok records =>
    have hlists := ofLines_eq_ok_iff.mp hread
    refine ⟨⟨fun _ => exists_lists_iff.mp ⟨records, hlists⟩, fun _ => ⟨ofRecords records, rfl⟩⟩,
      records, hlists, ?_, ?_, ?_, size_ofRecords records⟩
    · intro name
      exact find?_ofRecords records (.ofClass name)
    · intro owner name descriptor
      exact congrArg (Option.getD · name) (find?_ofRecords records (.ofField owner name))
    · intro owner name descriptor
      exact congrArg (Option.getD · name)
        (find?_ofRecords records (.ofMethod owner name descriptor))
  | error fault =>
    obtain ⟨n, line, cause, hget, hsound, hearlier, hcause, hfault⟩ := ofLines_eq_error hread
    refine ⟨⟨?_, fun hall => ?_⟩, n, line, cause, hget, hsound, hearlier, hcause, ?_⟩
    · rintro ⟨m, hm⟩
      exact absurd hm (by simp [Except.map])
    · exact absurd (hall line (List.mem_of_getElem? hget)) hsound
    · rw [hfault, Nat.add_comm]

/-- A field that is listed twice, in lines that end in different ways, beside a method of its
name. -/
def repeatedText : String :=
  "FD: sq/a W/x\n# FD: sq/b W/y\n\u00a0\tFD: sq/a a/W/z \r\nMD: sq/a (I)V W/f (I)V\n"

def repeatedRecords : List MappingRecord :=
  [.field "sq" "a" "x", .field "sq" "a" "z", .method "sq" "a" "(I)V" "f"]

/-- The second record of the field holds, and the two count as one. -/
theorem last_record_holds_repeatedText : ∃ m, parse repeatedText = .ok m ∧
    m.remapper.fieldName "sq" "a" "J" = "z" ∧ m.remapper.methodName "sq" "a" "(I)V" = "f" ∧
    m.remapper.methodName "sq" "a" "()V" = "a" ∧ m.size = 2 := by
  have hread : ofText repeatedText = .ok repeatedRecords := by decide +kernel
  have hparse : parse repeatedText = .ok (ofRecords repeatedRecords) := by
    rw [parse, hread]
    rfl
  obtain ⟨-, hm⟩ := last_record_holds repeatedText
  rw [hparse] at hm
  obtain ⟨records, hlists, -, hfield, hmethod, hsize⟩ := hm
  rw [ofText_eq, ofLines_eq_ok_iff.mpr hlists] at hread
  obtain rfl := Except.ok.inj hread
  refine ⟨_, hparse, ?_, ?_, ?_, ?_⟩
  · rw [hfield]
    decide
  · rw [hmethod]
    decide
  · rw [hmethod]
    decide
  · rw [hsize]
    decide

end Mappings

end ClassGraft
