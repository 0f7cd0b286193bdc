/-
Which methods are marked as those that a graft looks for.

A graft takes a method by the name that a canonical name has in the naming mode, while a method is
marked by the canonical name that its own name goes back to.  A name goes back to a canonical name
if it is the name that the canonical one has, or if it is the canonical name itself
(`NamingMode.canonicalName_eq_iff`).  The latter is `NamingMode.Misplaced` where members have their
run-time names: the method is marked, but never taken (`GraftConfig.marks_iff_taken`,
`GraftConfig.marks_untaken`).
-/
import ClassGraft.Cli.Summary
import ClassGraft.Proofs.PatchedDepths

namespace ClassGraft

namespace NamingMode

variable {mode : NamingMode} {name runtime actual : String}

/-- Whether a name is canonical where members have their run-time names. -/
def Misplaced (mode : NamingMode) (canonical actual : String) : Prop :=
  mode = .obfuscated ∧ actual = canonical

instance (mode : NamingMode) (canonical actual : String) :
    Decidable (mode.Misplaced canonical actual) :=
  inferInstanceAs (Decidable (_ ∧ _))

/-- Run-time names are those of one member each, and none of them is canonical. -/
theorem builtinNames_separate : ∀ p ∈ builtinNames, ∀ q ∈ builtinNames,
    (p.2 = q.2 → p.1 = q.1) ∧ p.1 ≠ q.2 := by
  decide +kernel

theorem lookup_builtinNames : ∀ p ∈ builtinNames, builtinNames.lookup p.1 = some p.2 := by
  decide +kernel

theorem resolve_of_mem (h : (name, runtime) ∈ builtinNames) :
    resolve .obfuscated name = runtime := by
  rw [resolve, lookup_builtinNames _ h, Option.getD_some]

theorem canonicalName_of_mem (h : (name, runtime) ∈ builtinNames) :
    canonicalName .obfuscated runtime = name := by
  rw [canonicalName]
  split
  · next name' runtime' hfind =>
    have hruntime : runtime' = runtime := by simpa using List.find?_some hfind
    exact (builtinNames_separate _ (List.mem_of_find?_eq_some hfind) _ h).1 hruntime
  · next hfind => exact absurd (List.find?_eq_none.mp hfind _ h) (by simp)

theorem canonicalName_of_not_mem (h : ∀ name, (name, actual) ∉ builtinNames) :
    canonicalName .obfuscated actual = actual := by
  rw [canonicalName]
  split
  · next name' runtime' hfind =>
    obtain rfl : runtime' = actual := by simpa using List.find?_some hfind
    exact absurd (List.mem_of_find?_eq_some hfind) (h name')
  · rfl

/-- A name goes back to a canonical name that is its own, or that has this name in the mode. -/
theorem canonicalName_eq_iff (h : (name, runtime) ∈ builtinNames) :
    mode.canonicalName actual = name ↔ actual = mode.resolve name ∨ mode.Misplaced name actual := by
  cases mode with
  | canonical => simp [canonicalName, resolve, Misplaced]
  | obfuscated =>
    rw [resolve_of_mem h, Misplaced]
    by_cases hactual : ∃ name', (name', actual) ∈ builtinNames
    · -- A run-time name goes back to one name only, and is not that name.
      obtain ⟨name', hmem⟩ := hactual
      have hapart : actual ≠ name := fun heq => (builtinNames_separate _ h _ hmem).2 heq.symm
      rw [canonicalName_of_mem hmem]
      constructor
      · rintro rfl
        exact .inl ((resolve_of_mem hmem).symm.trans (resolve_of_mem h))
      · rintro (rfl | ⟨-, heq⟩)
        · exact (builtinNames_separate _ hmem _ h).1 rfl
        · exact absurd heq hapart
    · -- Any other name passes through, so it goes back to itself.
      have hother : actual ≠ runtime := by
        rintro rfl
        exact hactual ⟨name, h⟩
      rw [canonicalName_of_not_mem fun name' hmem => hactual ⟨name', hmem⟩]
      simp [hother]

/-- No name is both the one that is looked for and misplaced. -/
theorem Misplaced.ne_resolve (h : (name, runtime) ∈ builtinNames)
    (hmisplaced : mode.Misplaced name actual) : actual ≠ mode.resolve name := by
  obtain ⟨rfl, rfl⟩ := hmisplaced
  rw [resolve_of_mem h]
  exact (builtinNames_separate _ h _ h).2

end NamingMode

namespace GraftConfig

variable {mode : NamingMode} {remapper : Remapper} {owner name descriptor canonical : String}

/-- The methods that a graft looks for: the one to change, and the one whose call is its anchor. -/
def sought : List String := [({} : GraftConfig).targetMethod, ({} : GraftConfig).anchorCallee]

theorem exists_builtin_of_sought (h : canonical ∈ sought) :
    ∃ runtime, (canonical, runtime) ∈ builtinNames := by
  have hall : ∀ name ∈ sought, ∃ p ∈ builtinNames, p.1 = name := by decide +kernel
  obtain ⟨⟨_, runtime⟩, hmem, rfl⟩ := hall canonical h
  exact ⟨runtime, hmem⟩

/-- A method is marked with what its name goes back to, if that is sought. -/
theorem knownAs_eq_some_iff (h : canonical ∈ sought) :
    knownAs {} mode remapper owner name descriptor = some canonical ↔
      mode.canonicalName (remapper.methodName owner name descriptor) = canonical := by
  show sought.find? (· == mode.canonicalName (remapper.methodName owner name descriptor)) =
    some canonical ↔ _
  generalize mode.canonicalName (remapper.methodName owner name descriptor) = actual
  constructor
  · intro hfind
    have heq : canonical = actual := by simpa using List.find?_some hfind
    exact heq.symm
  · rintro rfl
    cases hfind : sought.find? (· == actual) with
    | none => exact absurd (List.find?_eq_none.mp hfind _ h) (by simp)
    | some found =>
      have heq : found = actual := by simpa using List.find?_some hfind
      rw [heq]

/-- Whether a method is marked with a canonical name, and not because its own is misplaced. -/
def marksRightly (mode : NamingMode) (remapper : Remapper)
    (canonical owner name descriptor : String) : Bool :=
  knownAs {} mode remapper owner name descriptor = some canonical ∧
    ¬mode.Misplaced canonical (remapper.methodName owner name descriptor)

/-- Whether an instruction calls a method that is so marked. -/
def callsMarked (mode : NamingMode) (remapper : Remapper) (canonical : String) : Instruction → Bool
  | .invoke callee _ =>
    marksRightly mode remapper canonical callee.owner callee.name callee.descriptor
  | _ => false

/-- A method is marked if it has the name that is looked for, and also if its name is misplaced. -/
theorem knownAs_iff (h : canonical ∈ sought) :
    knownAs {} mode remapper owner name descriptor = some canonical ↔
      remapper.methodName owner name descriptor = mode.resolve canonical ∨
        mode.Misplaced canonical (remapper.methodName owner name descriptor) := by
  obtain ⟨runtime, hmem⟩ := exists_builtin_of_sought h
  rw [knownAs_eq_some_iff h, NamingMode.canonicalName_eq_iff hmem]

/-- Marks that are right are those of the methods that have the name that is looked for. -/
theorem marksRightly_eq (h : canonical ∈ sought) :
    marksRightly mode remapper canonical owner name descriptor =
      (remapper.methodName owner name descriptor == mode.resolve canonical) := by
  obtain ⟨runtime, hmem⟩ := exists_builtin_of_sought h
  rw [marksRightly, Bool.eq_iff_iff, decide_eq_true_iff, beq_iff_eq, knownAs_iff h]
  constructor
  · rintro ⟨hname | hmisplaced, hright⟩
    · exact hname
    · exact absurd hmisplaced hright
  · intro hname
    exact ⟨.inl hname, fun hmisplaced => hmisplaced.ne_resolve hmem hname⟩

theorem callsMarked_eq (h : canonical ∈ sought) :
    callsMarked mode remapper canonical =
      Instruction.callsName remapper (mode.resolve canonical) := by
  funext i
  cases i with
  | invoke callee dispatch => exact marksRightly_eq h
  | _ => rfl

/-- A method is marked with a name that a graft looks for exactly if it is one that the graft would
take by that name, unless its own name is the canonical one where members have their run-time
names: then it is marked all the same.  Such marks aside, the first marked method is the one that is
taken, and the first call of a marked method is the anchor. -/
theorem marks_iff_taken (mode : NamingMode) (remapper : Remapper) {canonical : String}
    (h : canonical ∈ sought) :
    (∀ owner name descriptor,
      let actual := remapper.methodName owner name descriptor
      let mark := knownAs {} mode remapper owner name descriptor
      ((mark = some canonical ↔ actual = mode.resolve canonical) ↔
        ¬mode.Misplaced canonical actual) ∧
      (mode.Misplaced canonical actual → mark = some canonical)) ∧
    (∀ (c : ClassFile) (place : Nat) (s : Traced ClassFile),
      (∃ s', findMethod c mode remapper canonical s = .ok place s') ↔
        ∃ owner, c.name = .ok owner ∧ (c.methods.findIdx? fun method =>
          marksRightly mode remapper canonical owner method.name method.descriptor) =
            some place) ∧
    ∀ (method : Method) (anchor : Nat) (s : Traced ClassFile),
      (∃ s', findAnchor method mode remapper canonical s = .ok anchor s') ↔
        ∃ code, method.code? = some code ∧
          code.instructions.findIdx? (callsMarked mode remapper canonical) = some anchor := by
  obtain ⟨runtime, hmem⟩ := exists_builtin_of_sought h
  refine ⟨fun owner name descriptor => ?_, fun c place s => ?_, fun method anchor s => ?_⟩
  · dsimp only
    rw [knownAs_iff h]
    refine ⟨⟨fun hmarks hmisplaced => ?_, fun hright => ?_⟩, .inr⟩
    · exact hmisplaced.ne_resolve hmem (hmarks.mp (.inr hmisplaced))
    · exact or_iff_left hright
  · rw [exists_findMethod_iff]
    simp only [marksRightly_eq h]
  · rw [exists_findAnchor_iff, callsMarked_eq h]

/-- In a class with its names as they are at run time a marked method is the one that is taken. -/
theorem marks_iff_taken_runtimeName : "uncheckedTryHarvestBlock" ∈ sought ∧
    knownAs {} .obfuscated .identity "A" "func_73082_a" "(III)V" =
      some "uncheckedTryHarvestBlock" := by
  have hsought : "uncheckedTryHarvestBlock" ∈ sought := by decide
  have hname : Remapper.identity.methodName "A" "func_73082_a" "(III)V" =
      NamingMode.obfuscated.resolve "uncheckedTryHarvestBlock" := by decide +kernel
  obtain ⟨hmarks, -, -⟩ := marks_iff_taken .obfuscated .identity hsought
  exact ⟨hsought, ((hmarks "A" "func_73082_a" "(III)V").1.mpr (by decide +kernel)).mpr hname⟩

/-- A method that has kept its canonical name is marked in obfuscated mode, and not found. -/
theorem marks_untaken : ∃ method s',
    (Transformer.harvestClass Transformer.plainBody).methods = [method] ∧
    (Cli.MethodEntry.ofMethod .obfuscated .identity "A" method).knownAs =
      some "uncheckedTryHarvestBlock" ∧
    Remapper.identity.methodName "A" method.name method.descriptor ≠
      NamingMode.obfuscated.resolve "uncheckedTryHarvestBlock" ∧
    findMethod (Transformer.harvestClass Transformer.plainBody) .obfuscated .identity
      "uncheckedTryHarvestBlock" ⟨Transformer.harvestClass Transformer.plainBody, []⟩ =
        .error (.methodNotFound "A" "func_73082_a") s' := by
  obtain ⟨log, hfailed⟩ := Step.eq_error_of_outcome (show (Step.outcome (findMethod
    (Transformer.harvestClass Transformer.plainBody) .obfuscated .identity
    "uncheckedTryHarvestBlock") (Transformer.harvestClass Transformer.plainBody)).1 =
      .error (.methodNotFound "A" "func_73082_a") by decide +kernel)
  exact ⟨_, _, rfl, by decide +kernel, by decide +kernel, hfailed⟩

end GraftConfig

end ClassGraft
