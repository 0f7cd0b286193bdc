/-
Field and method descriptors.

A descriptor is a short text for a type.  `FieldType.text` and `MethodDescriptor.text` write
it; `FieldType.parse` and `MethodDescriptor.parse` accept exactly what they write.  No written
type opens another, so a type can be read off the front of a text (`FieldType.read`) and a
parameter list needs no separators.

`FieldType.length_lt_of_read` says that reading a type consumes at least one character; the
loop over the parameters ends because of it.
-/
import ClassGraft.Descriptor.Slots

namespace ClassGraft

/-- The type of a field, a parameter or a result. -/
inductive FieldType where
  | byte
  | char
  | double
  | float
  | int
  | long
  | short
  | boolean
  | object (name : String)
  | array (component : FieldType)
  deriving DecidableEq, Repr, Inhabited

namespace FieldType

/-- The characters of the descriptor. -/
def chars : FieldType → List Char
  | .byte => ['B']
  | .char => ['C']
  | .double => ['D']
  | .float => ['F']
  | .int => ['I']
  | .long => ['J']
  | .short => ['S']
  | .boolean => ['Z']
  | .object name => 'L' :: (name.toList ++ [';'])
  | .array component => '[' :: component.chars

/-- The descriptor. -/
def text (t : FieldType) : String := String.ofList t.chars

/-- Small integral types are computed as `int`; objects and arrays are references. -/
def kind : FieldType → ValueKind
  | .byte | .char | .int | .short | .boolean => .int
  | .long => .long
  | .float => .float
  | .double => .double
  | .object _ | .array _ => .reference

/-- How many slots a value of the type takes. -/
def slots (t : FieldType) : Nat := t.kind.width

/-- The type whose descriptor opens the text, and what follows it.  Where there is none, the
fault is the text from the place on at which a type should have begun. -/
def read : List Char → Except (List Char) (FieldType × List Char)
  | [] => .error []
  | 'B' :: rest => .ok (.byte, rest)
  | 'C' :: rest => .ok (.char, rest)
  | 'D' :: rest => .ok (.double, rest)
  | 'F' :: rest => .ok (.float, rest)
  | 'I' :: rest => .ok (.int, rest)
  | 'J' :: rest => .ok (.long, rest)
  | 'S' :: rest => .ok (.short, rest)
  | 'Z' :: rest => .ok (.boolean, rest)
  | '[' :: rest =>
    match read rest with
    | .ok (component, rest) => .ok (.array component, rest)
    | .error place => .error place
  | 'L' :: rest =>
    match rest.takeWhile (· ≠ ';'), rest.dropWhile (· ≠ ';') with
    | name@(_ :: _), _ :: rest => .ok (.object (String.ofList name), rest)
    | _, _ => .error ('L' :: rest)
  | c :: rest => .error (c :: rest)

/-- A type takes at least one character. -/
theorem length_lt_of_read {s rest : List Char} {t : FieldType} (h : read s = .ok (t, rest)) :
    rest.length < s.length := by
  fun_induction read s generalizing t rest with
  | case10 after component rest' hread ih =>
    simp only [Except.ok.injEq, Prod.mk.injEq] at h
    obtain ⟨-, rfl⟩ := h
    have := ih hread
    simp only [List.length_cons]
    omega
  | case12 after c name d rest' hdrop =>
    simp only [Except.ok.injEq, Prod.mk.injEq] at h
    obtain ⟨-, rfl⟩ := h
    have hle : (after.dropWhile (· ≠ ';')).length ≤ after.length :=
      (List.dropWhile_sublist _).length_le
    rw [hdrop] at hle
    simp only [List.length_cons] at hle ⊢
    omega
  | _ => simp_all

/-- The type that a whole text is the descriptor of. -/
def parse (descriptor : String) : Except Fault FieldType :=
  match read descriptor.toList with
  | .ok (t, []) => .ok t
  | .ok (_, _ :: _) => .error (.invalidDescriptor descriptor)
  | .error place => .error (.invalidDescriptor (String.ofList place))

end FieldType

/-- The types of a method's parameters and of its result, none for `void`. -/
structure MethodDescriptor where
  params : List FieldType
  result : Option FieldType
  deriving DecidableEq, Repr, Inhabited

namespace MethodDescriptor

/-- The descriptor of a result. -/
def resultChars : Option FieldType → List Char
  | none => ['V']
  | some t => t.chars

/-- The characters of the descriptor. -/
def chars (d : MethodDescriptor) : List Char :=
  '(' :: (d.params.flatMap FieldType.chars ++ ')' :: resultChars d.result)

/-- The descriptor. -/
def text (d : MethodDescriptor) : String := String.ofList d.chars

/-- The types up to the closing parenthesis, and what follows it. -/
def readParams (s : List Char) : Option (List FieldType × List Char) :=
  match s with
  | ')' :: rest => some ([], rest)
  | s =>
    match h : FieldType.read s with
    | .ok (t, rest) =>
      have := FieldType.length_lt_of_read h
      (readParams rest).map fun (ts, rest) => (t :: ts, rest)
    | .error _ => none
termination_by s.length

/-- The result that a whole text is the descriptor of. -/
def readResult : List Char → Option (Option FieldType)
  | ['V'] => some none
  | s =>
    match FieldType.read s with
    | .ok (t, []) => some (some t)
    | _ => none

/-- The method descriptor that a list of characters spells, if it spells one. -/
def ofChars? : List Char → Option MethodDescriptor
  | '(' :: s => do
    let (params, rest) ← readParams s
    let result ← readResult rest
    return ⟨params, result⟩
  | _ => none

/-- The method descriptor that a text spells. -/
def parse (descriptor : String) : Except Fault MethodDescriptor :=
  match ofChars? descriptor.toList with
  | some d => .ok d
  | none => .error (.invalidDescriptor descriptor)

/-- How many slots the parameters take, the receiver not counted. -/
def argSlots [Build] (d : MethodDescriptor) : Except Fault Nat :=
  d.params.foldlM (fun slots t => Slots.hold (slots + t.slots)) 0

/-- How many slots the arguments of a call take, with the receiver if there is one. -/
def callSlots [Build] (d : MethodDescriptor) (hasReceiver : Bool) : Except Fault Nat := do
  let slots ← d.argSlots
  if hasReceiver then Slots.hold (slots + 1) else return slots

/-- How many slots the result takes. -/
def resultSlots (d : MethodDescriptor) : Nat := (d.result.map FieldType.slots).getD 0

/-- The kind of the result, none for `void`. -/
def resultKind (d : MethodDescriptor) : Option ValueKind := d.result.map FieldType.kind

end MethodDescriptor

end ClassGraft
