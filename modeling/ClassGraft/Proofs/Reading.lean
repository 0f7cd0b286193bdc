/-
What readers take from the bytes ahead of the cursor.

A read that succeeds has moved the cursor over some bytes (`Cursor.Advances`).  A reader
`Takes` a form if it yields a value exactly by moving over bytes that are a form of the value:
left to right this says that nothing is read which is not written so, right to left that
every written form is read, whatever follows it.  Forms of parts make up forms of compounds:

* `bind_eq_ok_iff` — a compound read is its parts one after the other;
* `bytes_eq_ok_iff`, `u16_eq_ok_iff`, … — what the fixed-width reads take;
* `Takes.times`, `Takes.table` — so many items, and a count with so many items;
* `Bytes.concatMapM_eq_ok_iff`, `Bytes.table_iff_ofTableM` — the same for writers.
-/
import Mathlib
import ClassGraft.Bytes.Reader
import ClassGraft.Bytes.Writer
import ClassGraft.Proofs.BigEndian
import ClassGraft.Proofs.Running

namespace ClassGraft

/-- The cursor moves from `c` over `bytes` to `c'`. -/
def Cursor.Advances (c : Cursor) (bytes : Bytes) (c' : Cursor) : Prop :=
  c.rest = bytes ++ c'.rest ∧ c'.pos = c.pos + bytes.length

namespace Cursor

variable {c c' : Cursor} {a b : Bytes}

@[simp] theorem advances_nil : c.Advances [] c' ↔ c = c' := by
  obtain ⟨pos, rest⟩ := c
  obtain ⟨pos', rest'⟩ := c'
  simp only [Advances, List.nil_append, List.length_nil, Nat.add_zero, mk.injEq]
  exact ⟨fun h => ⟨h.2.symm, h.1⟩, fun h => ⟨h.2, h.1.symm⟩⟩

/-- Moving over two runs of bytes is moving over one and then over the other. -/
theorem advances_append :
    c.Advances (a ++ b) c' ↔ ∃ m : Cursor, c.Advances a m ∧ m.Advances b c' := by
  constructor
  · rintro ⟨hrest, hpos⟩
    refine ⟨⟨c.pos + a.length, b ++ c'.rest⟩, ⟨?_, rfl⟩, rfl, ?_⟩
    · rw [hrest, List.append_assoc]
    · rw [hpos, List.length_append, Nat.add_assoc]
  · rintro ⟨m, ⟨hrest, hpos⟩, hrest', hpos'⟩
    refine ⟨?_, ?_⟩
    · rw [hrest, hrest', List.append_assoc]
    · rw [hpos', hpos, List.length_append, Nat.add_assoc]

theorem advances_cons {x : UInt8} :
    c.Advances (x :: b) c' ↔ ∃ m : Cursor, c.Advances [x] m ∧ m.Advances b c' := by
  rw [← List.singleton_append, advances_append]

theorem Advances.append {m : Cursor} (h : c.Advances a m) (h' : m.Advances b c') :
    c.Advances (a ++ b) c' :=
  advances_append.mpr ⟨m, h, h'⟩

/-- All bytes of a run lie ahead of its start, and none behind its end. -/
theorem advances_start {bytes : Bytes} (h : (Cursor.start bytes).Advances a c') :
    bytes = a ++ c'.rest ∧ c'.pos = a.length :=
  ⟨h.1, by rw [h.2]; exact Nat.zero_add _⟩

/-- The cursor may move over all bytes. -/
theorem exists_advances_start (bytes : Bytes) :
    ∃ c' : Cursor, (Cursor.start bytes).Advances bytes c' ∧ c'.rest = [] :=
  ⟨⟨0 + bytes.length, []⟩, ⟨(List.append_nil bytes).symm, rfl⟩, rfl⟩

end Cursor

namespace Reader

variable {α β : Type} {c c' : Cursor}

/-! ### Compound reads -/

theorem bind_eq_ok_iff {r : Reader α} {f : α → Reader β} {y : β} :
    (r >>= f) c = .ok y c' ↔ ∃ x m, r c = .ok x m ∧ f x m = .ok y c' :=
  Step.bind_eq_ok_iff

theorem pure_eq_ok_iff {x y : α} : (pure x : Reader α) c = .ok y c' ↔ x = y ∧ c = c' :=
  Step.pure_eq_ok_iff

theorem malformed_eq_ok_iff {cause : Malformation} {x : α} :
    (malformed cause : Reader α) c = .ok x c' ↔ False := by
  show EStateM.Result.error _ _ = _ ↔ _
  simp

theorem ofExcept_eq_ok_iff {e : Except Fault α} {x : α} :
    ofExcept e c = .ok x c' ↔ e = .ok x ∧ c = c' := by
  cases e with
  | error fault =>
    show EStateM.Result.error _ _ = _ ↔ _
    simp
  | ok y =>
    show EStateM.Result.ok y c = _ ↔ _
    simp

theorem ofExcept_eq_error_iff {e : Except Fault α} {fault : Fault} :
    ofExcept e c = .error fault c' ↔ e = .error fault ∧ c = c' := by
  cases e with
  | error fault' =>
    show EStateM.Result.error fault' c = _ ↔ _
    simp
  | ok x =>
    show EStateM.Result.ok x c = _ ↔ _
    simp

theorem ite_eq_ok_iff {p : Prop} [Decidable p] {r s : Reader α} {x : α} :
    (if p then r else s) c = .ok x c' ↔ p ∧ r c = .ok x c' ∨ ¬p ∧ s c = .ok x c' := by
  by_cases hp : p <;> simp [hp]

theorem transaction_eq_ok_iff {r : Reader α} {x : α} :
    transaction r c = .ok x c' ↔ r c = .ok x c' := by
  rw [transaction]
  cases r c <;> simp

theorem mapFault_eq_ok_iff {f : Fault → Fault} {r : Reader α} {x : α} :
    mapFault f r c = .ok x c' ↔ r c = .ok x c' := by
  rw [mapFault]
  cases r c <;> simp

theorem eval_eq_ok_iff {r : Reader α} {bytes : Bytes} {x : α} :
    r.eval bytes = .ok x ↔ ∃ c', r (Cursor.start bytes) = .ok x c' := by
  rw [eval]
  cases r (Cursor.start bytes) <;> simp

theorem eval_eq_error_iff {r : Reader α} {bytes : Bytes} {fault : Fault} :
    r.eval bytes = .error fault ↔ ∃ c', r (Cursor.start bytes) = .error fault c' := by
  rw [eval]
  cases r (Cursor.start bytes) <;> simp

/-! ### Looking around -/

theorem pos_eq_ok_iff {n : Nat} : pos c = .ok n c' ↔ n = c.pos ∧ c = c' := by
  rw [pos]
  simp [eq_comm]

theorem remaining_eq_ok_iff {n : Nat} : remaining c = .ok n c' ↔ n = c.rest.length ∧ c = c' := by
  rw [remaining]
  simp [eq_comm]

theorem more_eq_ok_iff {b : Bool} : more c = .ok b c' ↔ b = !c.rest.isEmpty ∧ c = c' := by
  rw [more]
  simp [eq_comm]

theorem ensure_eq_ok_iff {n : Nat} {u : Unit} :
    ensure n c = .ok u c' ↔ n ≤ c.rest.length ∧ c = c' := by
  rw [ensure]
  by_cases h : n ≤ c.rest.length <;> simp [h]

/-! ### Words -/

theorem bytes_eq_ok_iff {n : Nat} {b : Bytes} :
    bytes n c = .ok b c' ↔ b.length = n ∧ c.Advances b c' := by
  rw [bytes]
  constructor
  · intro h
    split at h
    · next hlen =>
      obtain ⟨rfl, rfl⟩ := by simpa using h
      exact ⟨hlen, (List.take_append_drop n c.rest).symm, by rw [hlen]⟩
    · exact absurd h (by simp)
  · rintro ⟨rfl, hrest, hpos⟩
    have htake : c.rest.take b.length = b := by rw [hrest, List.take_left]
    have hdrop : c.rest.drop b.length = c'.rest := by rw [hrest, List.drop_left]
    simp only [htake, hdrop, if_true, ← hpos]

theorem skip_eq_ok_iff {n : Nat} {u : Unit} :
    skip n c = .ok u c' ↔ ∃ b : Bytes, b.length = n ∧ c.Advances b c' := by
  show (bytes n >>= fun _ => pure ()) c = _ ↔ _
  simp only [bind_eq_ok_iff, pure_eq_ok_iff, bytes_eq_ok_iff]
  constructor
  · rintro ⟨b, m, h, -, rfl⟩
    exact ⟨b, h⟩
  · rintro ⟨b, h⟩
    exact ⟨b, c', h, trivial, rfl⟩

theorem word_eq_ok_iff {width n : Nat} :
    word width c = .ok n c' ↔ n < 256 ^ width ∧ c.Advances (BigEndian.encode width n) c' := by
  show (bytes width >>= fun b => pure (BigEndian.decode b)) c = _ ↔ _
  simp only [bind_eq_ok_iff, pure_eq_ok_iff, bytes_eq_ok_iff]
  constructor
  · rintro ⟨b, m, ⟨rfl, h⟩, rfl, rfl⟩
    exact ⟨BigEndian.decode_lt b, by rwa [BigEndian.encode_decode]⟩
  · rintro ⟨hn, h⟩
    exact ⟨_, _, ⟨BigEndian.length_encode width n, h⟩, BigEndian.decode_encode hn, rfl⟩

/-- A read through a map that `g` undoes. -/
theorem map_eq_ok_iff {r : Reader α} {f : α → β} {g : β → α} {y : β} (hfg : f (g y) = y)
    (hgf : ∀ x, g (f x) = x) :
    (do return f (← r) : Reader β) c = .ok y c' ↔ r c = .ok (g y) c' := by
  show (r >>= fun x => pure (f x)) c = _ ↔ _
  simp only [bind_eq_ok_iff, pure_eq_ok_iff]
  constructor
  · rintro ⟨x, m, h, rfl, rfl⟩
    rwa [hgf x]
  · intro h
    exact ⟨g y, c', h, hfg, rfl⟩

/-- A word read into a type whose values are the numbers below a power of 256. -/
theorem word_map_eq_ok_iff {width : Nat} {f : Nat → α} {g : α → Nat} {x : α}
    (hg : ∀ v, g v < 256 ^ width) (hfg : f (g x) = x) (hgf : ∀ n < 256 ^ width, g (f n) = n) :
    (do return f (← word width) : Reader α) c = .ok x c' ↔
      c.Advances (BigEndian.encode width (g x)) c' := by
  show (word width >>= fun n => pure (f n)) c = _ ↔ _
  simp only [bind_eq_ok_iff, pure_eq_ok_iff, word_eq_ok_iff]
  constructor
  · rintro ⟨n, m, ⟨hn, h⟩, rfl, rfl⟩
    rwa [hgf n hn]
  · intro h
    exact ⟨g x, c', ⟨hg x, h⟩, hfg, rfl⟩

theorem u8_eq_ok_iff {v : UInt8} : u8 c = .ok v c' ↔ c.Advances [v] c' := by
  have h : BigEndian.encode 1 v.toNat = [v] := by simp [BigEndian.encode]
  rw [← h]
  exact word_map_eq_ok_iff UInt8.toNat_lt UInt8.ofNat_toNat fun _ => UInt8.toNat_ofNat_of_lt'

theorem u16_eq_ok_iff {v : UInt16} : u16 c = .ok v c' ↔ c.Advances (Bytes.ofU16 v) c' :=
  word_map_eq_ok_iff UInt16.toNat_lt UInt16.ofNat_toNat fun _ => UInt16.toNat_ofNat_of_lt'

theorem u32_eq_ok_iff {v : UInt32} : u32 c = .ok v c' ↔ c.Advances (Bytes.ofU32 v) c' :=
  word_map_eq_ok_iff UInt32.toNat_lt UInt32.ofNat_toNat fun _ => UInt32.toNat_ofNat_of_lt'

theorem u64_eq_ok_iff {v : UInt64} : u64 c = .ok v c' ↔ c.Advances (Bytes.ofU64 v) c' :=
  word_map_eq_ok_iff UInt64.toNat_lt UInt64.ofNat_toNat fun _ => UInt64.toNat_ofNat_of_lt'

theorem i16_eq_ok_iff {v : Int16} : i16 c = .ok v c' ↔ c.Advances (Bytes.ofI16 v) c' :=
  (map_eq_ok_iff rfl fun _ => rfl).trans u16_eq_ok_iff

theorem i32_eq_ok_iff {v : Int32} : i32 c = .ok v c' ↔ c.Advances (Bytes.ofI32 v) c' :=
  (map_eq_ok_iff rfl fun _ => rfl).trans u32_eq_ok_iff

theorem i64_eq_ok_iff {v : Int64} :
    i64 c = .ok v c' ↔ c.Advances (Bytes.ofU64 v.toUInt64) c' :=
  (map_eq_ok_iff rfl fun _ => rfl).trans u64_eq_ok_iff

end Reader

/-! ### Forms -/

/-- A run of bytes that is made up of a form of each value in turn. -/
def Bytes.Many {α : Type} (form : α → Bytes → Prop) : List α → Bytes → Prop
  | [], bytes => bytes = []
  | x :: xs, bytes => ∃ a b : Bytes, form x a ∧ Many form xs b ∧ bytes = a ++ b

/-- A two-byte count and a form of each value in turn. -/
def Bytes.Table {α : Type} (form : α → Bytes → Prop) (xs : List α) (bytes : Bytes) : Prop :=
  xs.length < 65536 ∧
    ∃ items : Bytes, Many form xs items ∧ bytes = BigEndian.encode 2 xs.length ++ items

namespace Bytes

variable {α : Type} {form : α → Bytes → Prop} {w : α → Except Fault Bytes} {xs : List α}
  {b : Bytes}

theorem Many.mono {form' : α → Bytes → Prop} (hform : ∀ x ∈ xs, ∀ b, form x b → form' x b)
    (h : Many form xs b) : Many form' xs b := by
  induction xs generalizing b with
  | nil => exact h
  | cons x xs ih =>
    obtain ⟨a, b, hx, hxs, rfl⟩ := h
    exact ⟨a, b, hform x (by simp) a hx,
      ih (fun y hy => hform y (List.mem_cons_of_mem x hy)) hxs, rfl⟩

theorem Table.mono {form' : α → Bytes → Prop} (hform : ∀ x ∈ xs, ∀ b, form x b → form' x b)
    (h : Table form xs b) : Table form' xs b := by
  obtain ⟨hlen, items, hitems, rfl⟩ := h
  exact ⟨hlen, items, hitems.mono hform, rfl⟩

/-- Conditions on the values may be kept apart from their forms. -/
theorem many_and_iff {P : α → Prop} :
    Many (fun x b => P x ∧ form x b) xs b ↔ (∀ x ∈ xs, P x) ∧ Many form xs b := by
  constructor
  · intro h
    refine ⟨?_, h.mono fun x _ b hx => hx.2⟩
    induction xs generalizing b with
    | nil => simp
    | cons x xs ih =>
      obtain ⟨a, b, hx, hxs, rfl⟩ := h
      exact List.forall_mem_cons.mpr ⟨hx.1, ih hxs⟩
  · rintro ⟨hP, h⟩
    exact h.mono fun x hx b hb => ⟨hP x hx, hb⟩

theorem table_and_iff {P : α → Prop} :
    Table (fun x b => P x ∧ form x b) xs b ↔ (∀ x ∈ xs, P x) ∧ Table form xs b := by
  simp only [Table, many_and_iff]
  constructor
  · rintro ⟨hlen, items, ⟨hP, h⟩, rfl⟩
    exact ⟨hP, hlen, items, h, rfl⟩
  · rintro ⟨hP, hlen, items, h, rfl⟩
    exact ⟨hlen, items, ⟨hP, h⟩, rfl⟩

theorem many_map_iff {β : Type} {f : β → α} {ys : List β} :
    Many form (ys.map f) b ↔ Many (fun y b => form (f y) b) ys b := by
  induction ys generalizing b with
  | nil => rfl
  | cons y ys ih => simp only [List.map_cons, Many, ih]

theorem table_map_iff {β : Type} {f : β → α} {ys : List β} :
    Table form (ys.map f) b ↔ Table (fun y b => form (f y) b) ys b := by
  simp only [Table, List.length_map, many_map_iff]

/-- Values that stand for the bytes may be chosen for all items at once. -/
theorem many_exists_iff {β : Type} {R : α → β → Prop} {form : β → Bytes → Prop} :
    Many (fun x b => ∃ y, R x y ∧ form y b) xs b ↔ ∃ ys, List.Forall₂ R xs ys ∧ Many form ys b := by
  induction xs generalizing b with
  | nil => simp [Many]
  | cons x xs ih =>
    simp only [Many, ih, List.forall₂_cons_left_iff]
    constructor
    · rintro ⟨a, b, ⟨y, hxy, hy⟩, ⟨ys, hxys, hys⟩, rfl⟩
      exact ⟨y :: ys, ⟨y, ys, hxy, hxys, rfl⟩, a, b, hy, hys, rfl⟩
    · rintro ⟨_, ⟨y, ys, hxy, hxys, rfl⟩, a, b, hy, hys, rfl⟩
      exact ⟨a, b, ⟨y, hxy, hy⟩, ⟨ys, hxys, hys⟩, rfl⟩

theorem table_exists_iff {β : Type} {R : α → β → Prop} {form : β → Bytes → Prop} :
    Table (fun x b => ∃ y, R x y ∧ form y b) xs b ↔
      ∃ ys, List.Forall₂ R xs ys ∧ Table form ys b := by
  simp only [Table, many_exists_iff]
  constructor
  · rintro ⟨hlen, items, ⟨ys, hxys, hys⟩, rfl⟩
    exact ⟨ys, hxys, hxys.length_eq ▸ hlen, items, hys, by rw [hxys.length_eq]⟩
  · rintro ⟨ys, hxys, hlen, items, hys, rfl⟩
    exact ⟨hxys.length_eq ▸ hlen, items, ⟨ys, hxys, hys⟩, by rw [hxys.length_eq]⟩

/-! ### Forms of each value -/

theorem Many.sum_le {f : α → Nat} (h : Many form xs b)
    (hsize : ∀ x ∈ xs, ∀ b : Bytes, form x b → f x ≤ b.length) :
    (xs.map f).sum ≤ b.length := by
  induction xs generalizing b with
  | nil => exact Nat.zero_le _
  | cons x xs ih =>
    obtain ⟨a, b, hx, hxs, rfl⟩ := h
    obtain ⟨hsize, hsizes⟩ := List.forall_mem_cons.mp hsize
    rw [List.map_cons, List.sum_cons, List.length_append]
    exact Nat.add_le_add (hsize a hx) (ih hxs hsizes)

theorem Many.le_sum {f : α → Nat} (h : Many form xs b)
    (hsize : ∀ x ∈ xs, ∀ b : Bytes, form x b → b.length ≤ f x) :
    b.length ≤ (xs.map f).sum := by
  induction xs generalizing b with
  | nil =>
    obtain rfl : b = [] := h
    exact Nat.le_refl _
  | cons x xs ih =>
    obtain ⟨a, b, hx, hxs, rfl⟩ := h
    obtain ⟨hsize, hsizes⟩ := List.forall_mem_cons.mp hsize
    rw [List.map_cons, List.sum_cons, List.length_append]
    exact Nat.add_le_add (hsize a hx) (ih hxs hsizes)

/-- Each of the values has a form that is no longer than all. -/
theorem Many.exists_of_mem (h : Many form xs b) {x : α} (hx : x ∈ xs) :
    ∃ a : Bytes, form x a ∧ a.length ≤ b.length := by
  induction xs generalizing b with
  | nil => exact absurd hx List.not_mem_nil
  | cons y ys ih =>
    obtain ⟨a, b, hy, hys, rfl⟩ := h
    rw [List.length_append]
    rcases List.mem_cons.mp hx with rfl | hx
    · exact ⟨a, hy, Nat.le_add_right _ _⟩
    · obtain ⟨a', ha', hle⟩ := ih hys hx
      exact ⟨a', ha', hle.trans (Nat.le_add_left _ _)⟩

/-- Each entry of a table has a form, which leaves room for the count. -/
theorem Table.exists_of_mem (h : Table form xs b) {x : α} (hx : x ∈ xs) :
    ∃ a : Bytes, form x a ∧ a.length + 2 ≤ b.length := by
  obtain ⟨-, items, hitems, rfl⟩ := h
  obtain ⟨a, ha, hle⟩ := hitems.exists_of_mem hx
  refine ⟨a, ha, ?_⟩
  rw [List.length_append, BigEndian.length_encode]
  omega

theorem exists_many_iff : (∃ b, Many form xs b) ↔ ∀ x ∈ xs, ∃ b, form x b := by
  constructor
  · rintro ⟨b, h⟩ x hx
    obtain ⟨a, ha, -⟩ := h.exists_of_mem hx
    exact ⟨a, ha⟩
  · intro h
    induction xs with
    | nil => exact ⟨[], rfl⟩
    | cons x xs ih =>
      obtain ⟨⟨a, ha⟩, hxs⟩ := List.forall_mem_cons.mp h
      obtain ⟨b, hb⟩ := ih hxs
      exact ⟨a ++ b, a, b, ha, hb, rfl⟩

/-! ### Written forms -/

theorem bind_eq_ok_iff {ε β : Type} {e : Except ε α} {f : α → Except ε β} {y : β} :
    (e >>= f) = .ok y ↔ ∃ x, e = .ok x ∧ f x = .ok y := by
  cases e with
  | error fault => simp [bind, Except.bind]
  | ok x => simp [bind, Except.bind]

theorem bind_pure_eq_ok_iff {β : Type} {e : Except Fault α} {f : α → β} {y : β} :
    (e >>= fun x => (pure (f x) : Except Fault β)) = .ok y ↔ ∃ x, e = .ok x ∧ y = f x := by
  rw [bind_eq_ok_iff]
  constructor
  · rintro ⟨x, hx, hy⟩
    exact ⟨x, hx, (Except.ok.inj hy).symm⟩
  · rintro ⟨x, hx, rfl⟩
    exact ⟨x, hx, rfl⟩

/-- What is worked out of a result is there if the result is. -/
theorem exists_bind_pure_iff {β : Type} {e : Except Fault α} {f : α → β} :
    (∃ y, (e >>= fun x => (pure (f x) : Except Fault β)) = .ok y) ↔ ∃ x, e = .ok x := by
  simp only [bind_pure_eq_ok_iff]
  constructor
  · rintro ⟨-, x, hx, -⟩
    exact ⟨x, hx⟩
  · rintro ⟨x, hx⟩
    exact ⟨f x, x, hx, rfl⟩

/-- A result under a condition that is checked. -/
theorem ite_throw_eq_ok_iff {p : Prop} [Decidable p] {e : Except Fault α} {fault : Fault} {x : α} :
    (if p then e else throw fault) = .ok x ↔ p ∧ e = .ok x := by
  by_cases hp : p <;> simp [hp, throw, throwThe, MonadExceptOf.throw]

/-- A traversal whose single steps undo a map succeeds exactly with what is mapped back. -/
theorem mapM_eq_ok_iff {ε α β γ : Type} {f : α → Except ε β} {g : α → γ} {h : β → γ}
    {P : β → Prop} (hf : ∀ x y, f x = .ok y ↔ g x = h y ∧ P y) {xs : List α} {ys : List β} :
    xs.mapM f = .ok ys ↔ xs.map g = ys.map h ∧ ∀ y ∈ ys, P y := by
  induction xs generalizing ys with
  | nil => cases ys <;> simp [pure, Except.pure]
  | cons x xs ih =>
    rw [List.mapM_cons]
    constructor
    · intro hys
      rcases hx : f x with _ | y
      · rw [hx] at hys
        exact absurd hys (by simp [bind, Except.bind])
      · rw [hx] at hys
        rcases hrest : xs.mapM f with _ | rest
        · rw [hrest] at hys
          exact absurd hys (by simp [bind, Except.bind])
        · rw [hrest] at hys
          obtain rfl := Except.ok.inj hys
          obtain ⟨hgx, hy⟩ := (hf x y).mp hx
          obtain ⟨hmap, hall⟩ := ih.mp hrest
          exact ⟨by rw [List.map_cons, List.map_cons, hgx, hmap],
            List.forall_mem_cons.mpr ⟨hy, hall⟩⟩
    · rintro ⟨hmap, hall⟩
      cases ys with
      | nil => exact absurd hmap (by simp)
      | cons y ys =>
        obtain ⟨hgx, hrest⟩ := List.cons.inj hmap
        obtain ⟨hy, hys⟩ := List.forall_mem_cons.mp hall
        rw [(hf x y).mpr ⟨hgx, hy⟩, ih.mpr ⟨hrest, hys⟩]
        rfl

theorem concatMapM_eq_ok_iff :
    concatMapM w xs = .ok b ↔ Many (fun x b => w x = .ok b) xs b := by
  rw [concatMapM]
  induction xs generalizing b with
  | nil => simp [Many, pure, Except.pure, bind, Except.bind, eq_comm]
  | cons x xs ih =>
    simp only [List.mapM_cons, bind_eq_ok_iff, Many] at ih ⊢
    constructor
    · rintro ⟨parts, ⟨a, ha, rest, hrest, hparts⟩, hb⟩
      obtain rfl := Except.ok.inj hparts
      obtain rfl := Except.ok.inj hb
      exact ⟨a, rest.flatten, ha, ih.mp ⟨rest, hrest, rfl⟩, List.flatten_cons⟩
    · rintro ⟨a, items, ha, hitems, rfl⟩
      obtain ⟨rest, hrest, hflat⟩ := ih.mpr hitems
      obtain rfl := Except.ok.inj hflat
      exact ⟨a :: rest, ⟨a, ha, rest, hrest, rfl⟩, by rw [List.flatten_cons]; rfl⟩

theorem ofTableM_eq_ok_iff : ofTableM w xs = .ok b ↔
    ∃ items : Bytes, Many (fun x b => w x = .ok b) xs items ∧
      b = BigEndian.encode 2 xs.length ++ items := by
  simp only [← concatMapM_eq_ok_iff]
  exact bind_pure_eq_ok_iff

/-- What a table writer writes is a table if its items can be counted in two bytes. -/
theorem table_iff_ofTableM :
    Table (fun x b => w x = .ok b) xs b ↔ xs.length < 65536 ∧ ofTableM w xs = .ok b := by
  rw [ofTableM_eq_ok_iff, Table]

theorem exists_concatMapM_iff :
    (∃ b, concatMapM w xs = .ok b) ↔ ∀ x ∈ xs, ∃ b, w x = .ok b := by
  simp only [concatMapM_eq_ok_iff]
  exact exists_many_iff

theorem exists_ofTableM_iff : (∃ b, ofTableM w xs = .ok b) ↔ ∀ x ∈ xs, ∃ b, w x = .ok b := by
  rw [← exists_concatMapM_iff]
  exact exists_bind_pure_iff

theorem many_iff_flatMap {w : α → Bytes} : Many (fun x b => b = w x) xs b ↔ b = xs.flatMap w := by
  induction xs generalizing b with
  | nil => simp [Many]
  | cons x xs ih =>
    simp only [Many, ih, List.flatMap_cons]
    constructor
    · rintro ⟨a, items, rfl, rfl, rfl⟩
      rfl
    · rintro rfl
      exact ⟨w x, _, rfl, rfl, rfl⟩

theorem table_iff_ofTable {w : α → Bytes} :
    Table (fun x b => b = w x) xs b ↔ xs.length < 65536 ∧ b = ofTable w xs := by
  simp only [Table, many_iff_flatMap, ofTable, exists_eq_left]

theorem ofU16_ofNat {n : Nat} (h : n < 65536) :
    Bytes.ofU16 (UInt16.ofNat n) = BigEndian.encode 2 n := by
  rw [Bytes.ofU16, UInt16.toNat_ofNat_of_lt' h]

end Bytes

namespace Reader

variable {α : Type} {form : α → Bytes → Prop} {item : Reader α}

/-- The reader yields a value exactly by taking a form of it. -/
def Takes (r : Reader α) (form : α → Bytes → Prop) : Prop :=
  ∀ (c : Cursor) (x : α) (c' : Cursor),
    r c = .ok x c' ↔ ∃ b : Bytes, form x b ∧ c.Advances b c'

theorem takes_u16 : u16.Takes fun v b => b = Bytes.ofU16 v := by
  intro c x c'
  rw [u16_eq_ok_iff, exists_eq_left]

theorem timesOnto_eq_ok_iff (h : item.Takes form) (n : Nat) (done ys : List α) (c c' : Cursor) :
    timesOnto item n done c = .ok ys c' ↔
      ∃ (xs : List α) (b : Bytes),
        ys = done.reverse ++ xs ∧ xs.length = n ∧ Bytes.Many form xs b ∧ c.Advances b c' := by
  induction n generalizing done c with
  | zero =>
    rw [timesOnto, pure_eq_ok_iff]
    constructor
    · rintro ⟨rfl, rfl⟩
      exact ⟨[], [], by simp, rfl, rfl, by simp⟩
    · rintro ⟨xs, b, rfl, hlen, hmany, hb⟩
      obtain rfl := List.eq_nil_of_length_eq_zero hlen
      obtain rfl : b = [] := hmany
      exact ⟨by simp, by simpa using hb⟩
  | succ n ih =>
    simp only [timesOnto, bind_eq_ok_iff, h _ _ _, ih]
    constructor
    · rintro ⟨x, m, ⟨a, hx, ha⟩, xs, b, rfl, rfl, hmany, hb⟩
      exact ⟨x :: xs, a ++ b, by simp, rfl, ⟨a, b, hx, hmany, rfl⟩, ha.append hb⟩
    · rintro ⟨xs, b, rfl, hlen, hmany, hb⟩
      cases xs with
      | nil => exact absurd hlen (by simp)
      | cons x xs =>
        obtain ⟨a, items, hx, hitems, rfl⟩ := hmany
        obtain ⟨m, ha, hb⟩ := Cursor.advances_append.mp hb
        exact ⟨x, m, ⟨a, hx, ha⟩, xs, items, by simp, by simpa using hlen, hitems, hb⟩

theorem Takes.times (h : item.Takes form) (n : Nat) :
    (times n item).Takes fun xs b => xs.length = n ∧ Bytes.Many form xs b := by
  intro c xs c'
  rw [Reader.times, timesOnto_eq_ok_iff h]
  constructor
  · rintro ⟨ys, b, rfl, hlen, hmany, hb⟩
    exact ⟨b, ⟨hlen, hmany⟩, hb⟩
  · rintro ⟨b, ⟨hlen, hmany⟩, hb⟩
    exact ⟨xs, b, rfl, hlen, hmany, hb⟩

theorem Takes.table (h : item.Takes form) : (table item).Takes (Bytes.Table form) := by
  intro c xs c'
  simp only [Reader.table, bind_eq_ok_iff, u16_eq_ok_iff, h.times _ _ _ _]
  constructor
  · rintro ⟨count, m, hcount, items, ⟨hlen, hmany⟩, hitems⟩
    refine ⟨_, ⟨?_, items, hmany, rfl⟩, ?_⟩
    · rw [hlen]
      exact count.toNat_lt
    · rw [hlen]
      exact hcount.append hitems
  · rintro ⟨b, ⟨hlen, items, hmany, rfl⟩, hb⟩
    obtain ⟨m, hcount, hitems⟩ := Cursor.advances_append.mp hb
    have htoNat : (UInt16.ofNat xs.length).toNat = xs.length := UInt16.toNat_ofNat_of_lt' hlen
    refine ⟨UInt16.ofNat xs.length, m, ?_, items, ⟨htoNat.symm, hmany⟩, hitems⟩
    rwa [Bytes.ofU16, htoNat]

end Reader

end ClassGraft
