/-
What a splice needs, and what it leaves.

A splice looks for the instruction to take out in a body that it has put the handler call into
already.  Here all that it needs is said of the original body, method and pool
(`SpliceSite.Suits`): a call with an `int` result, a receiver and three `int` parameters, a free
local, both fields, room for the constants (`Injection.supply`), and behind the call nothing but
instructions that do nothing before a `pop` that nothing refers to (`Code.Discards`).

A splice succeeds exactly if all of this is found, and then leaves the original body with the call
behind the anchor and without the `pop`, all instructions, targets and positions in tables at their
new numbers (`Code.TakesCall`), and the pool with the constants (`splice_succeeds_exactly`).
-/
import ClassGraft.Proofs.PoolCompletion
import ClassGraft.Proofs.SpliceEffect

namespace ClassGraft

/-! ### The body that is left -/

/-- Whether `code'` is `code` with the eleven instructions of `call` behind the anchor and without
the instruction at `discard`, where `number` says what has become of a position.  A position of
`discard` itself in a table goes on to what stood behind it. -/
structure Code.TakesCall (code code' : Code) (anchor discard : Nat) (call : Instructions)
    (number : Nat → Nat) : Prop where
  before : ∀ p ≤ anchor, number p = p
  between : ∀ p, anchor < p → p ≤ discard → number p = p + 11
  behind : ∀ p, discard < p → number p = p + 10
  length : code'.instructions.length = code.instructions.length + 10
  moved : ∀ p ≠ discard, code'.instructions[number p]? =
    code.instructions[p]?.map (Instruction.mapTargets number)
  put : ∀ k < 11, code'.instructions[anchor + 1 + k]? = call[k]?
  handlers : code'.handlers = code.handlers.map (Handler.mapPositions number)
  attributes : code'.attributes = code.attributes.map fun a =>
    (a.mapPositions number).dropLinesFrom code'.instructions.length
  maxStack : code'.maxStack = code.maxStack
  maxLocals : code'.maxLocals = code.maxLocals

/-- A splice leaves a body that takes the call. -/
theorem IsSplice.takesCall [Build] {method : Method} {anchor : Nat} {injection : Injection}
    {spliced : Spliced} {draft draft' : Draft} {m : HandlerMembers} {discard : Nat}
    (h : IsSplice method anchor injection spliced draft draft' m)
    (hremoved : spliced.removed = discard + 11) :
    draft.code.TakesCall draft'.code anchor discard (m.call spliced.slot .int)
      (Renumber.spliced anchor 11 discard) := by
  obtain ⟨discard', hremoved', hspliced⟩ := h.isSpliced
  obtain rfl : discard' = discard := by omega
  obtain ⟨i, hremove⟩ := h.code
  obtain ⟨hi, -, hcode⟩ := Code.remove_eq_ok_iff.mp hremove
  have hlength : draft'.code.instructions.length = draft.code.instructions.length + 10 := by
    have hplace := (List.getElem?_eq_some_iff.mp hi).1
    have hinsert := Instructions.length_insert draft.code.instructions (anchor + 1)
      (m.call spliced.slot .int)
    rw [hcode]
    show (List.map _ _).length = _
    rw [List.length_map, List.length_eraseIdx_of_lt hplace]
    show (Instructions.insert _ _ _).length - 1 = _
    rw [hinsert, HandlerMembers.length_call]
    omega
  refine ⟨fun p => Renumber.spliced_of_le hspliced.lt, fun p => Renumber.spliced_of_lt,
    fun p => Renumber.spliced_of_gt hspliced.lt, hlength, hspliced.moved, hspliced.put,
    hspliced.handlers, ?_, ?_, ?_⟩
  · -- The attributes are renumbered by the insertion, then by the removal, which drops lines.
    rw [hcode]
    show List.map _ (List.map _ (List.map _ _)) = _
    rw [List.map_map, List.map_map]
    refine List.map_congr_left fun a _ => ?_
    show ((a.mapPositions _).mapPositions _).dropLinesFrom _ = _
    rw [CodeAttribute.mapPositions_mapPositions, hremoved]
    rfl
  · rw [hcode]
    rfl
  · rw [hcode]
    rfl

/-! ### The constants -/

open ConstantPool

/-- A reference to a member, whose constant is appended where it is missing. -/
def supplyMemberRef (constant : UInt16 → UInt16 → Constant) (owner name descriptor : String) :
    StateM ConstantPool MemberRef := do
  return ⟨← supplyMember constant owner name descriptor, owner, name, descriptor⟩

theorem realizes_memberOf (constant : UInt16 → UInt16 → Constant)
    (owner name descriptor : String) :
    Realizes (supplyMemberRef constant owner name descriptor)
      (memberOf constant owner name descriptor) :=
  (realizes_memberIndex constant owner name descriptor).bind fun _ => .pure _

namespace Injection

/-- The members that a handler call names, with all constants that are missing, however many slots
there are then. -/
def supply (injection : Injection) (world player : FieldRecord) :
    StateM ConstantPool HandlerMembers := do
  let config := injection.config
  let holder ← supplyMemberRef .fieldRef config.handlerClass config.handlerField config.handlerType
  let worldRef ← supplyMemberRef .fieldRef injection.owner world.name world.descriptor
  let playerRef ← supplyMemberRef .fieldRef injection.owner player.name player.descriptor
  let handler ← supplyMemberRef .methodRef config.handlerClass config.handlerMethod
    (GraftConfig.handlerDescriptor world.descriptor player.descriptor)
  return ⟨holder, worldRef, playerRef, handler⟩

theorem realizes_members (injection : Injection) (world player : FieldRecord) :
    Realizes (injection.supply world player) (injection.members world player) :=
  (realizes_memberOf .fieldRef _ _ _).bind fun _ =>
    (realizes_memberOf .fieldRef _ _ _).bind fun _ =>
      (realizes_memberOf .fieldRef _ _ _).bind fun _ =>
        (realizes_memberOf .methodRef _ _ _).bind fun _ => .pure _

end Injection

/-! ### The conditions of a splice -/

theorem checkCoordinates_eq_ok_iff {method : Method} {anchor : Nat} :
    checkCoordinates method anchor = .ok () ↔ method.isStatic = false ∧
      ∃ d, MethodDescriptor.parse method.descriptor = .ok d ∧
        (d.params.take 3).map FieldType.kind = [.int, .int, .int] := by
  rw [checkCoordinates]
  cases method.isStatic with
  | true => simp
  | false =>
    simp only [Bool.false_eq_true, if_false, Bytes.bind_eq_ok_iff, Bytes.ite_throw_eq_ok_iff,
      true_and]
    constructor
    · rintro ⟨d, hd, hkinds, -⟩
      exact ⟨d, hd, hkinds⟩
    · rintro ⟨d, hd, hkinds⟩
      exact ⟨d, hd, hkinds, rfl⟩

/-- The local that is taken is the first one behind those in use, as long as it can be counted. -/
theorem freeSlot_eq_ok_iff [Build] {method : Method} {code : Code} {anchor : Nat}
    {slot : UInt16} : freeSlot method code anchor .int = .ok slot ↔
      ∃ slots, method.parameterSlots = .ok slots ∧ code.localWatermark slots ≤ 65534 ∧
        slot = UInt16.ofNat (code.localWatermark slots) := by
  rw [freeSlot, Bytes.bind_eq_ok_iff]
  refine exists_congr fun slots => and_congr_right fun _ => ?_
  show (if code.localWatermark slots + 1 ≤ 65535 then _ else _) = _ ↔ _
  rw [Bytes.ite_throw_eq_ok_iff]
  refine and_congr Nat.succ_le_succ_iff ?_
  constructor
  · intro h
    exact (Except.ok.inj h).symm
  · rintro rfl
    rfl

/-- What a splice looks up. -/
structure SpliceSite where
  /-- The types of the method. -/
  types : MethodDescriptor
  /-- How many slots the receiver and the parameters take, as the program counts them. -/
  slots : Nat
  world : FieldRecord
  player : FieldRecord
  /-- The position of the `pop` to take out. -/
  discard : Nat

namespace SpliceSite

/-- The local for the captured result. -/
def slot (site : SpliceSite) (code : Code) : Nat := code.localWatermark site.slots

/-- Whether a site has all that a splice needs, in a draft that nothing has been put into. -/
structure Suits [Build] (site : SpliceSite) (method : Method) (anchor : Nat) (injection : Injection)
    (draft : Draft) : Prop where
  callee : ∃ callee dispatch d, draft.code.instructions[anchor]? = some (.invoke callee dispatch) ∧
    MethodDescriptor.parse callee.descriptor = .ok d ∧ d.resultKind = some .int
  receiver : method.isStatic = false
  types : MethodDescriptor.parse method.descriptor = .ok site.types
  coordinates : (site.types.params.take 3).map FieldType.kind = [.int, .int, .int]
  counted : site.types.callSlots true = .ok site.slots
  free : site.slot draft.code ≤ 65534
  world : injection.fields.find (injection.mode.resolve injection.config.worldField) =
    .ok site.world
  player : injection.fields.find (injection.mode.resolve injection.config.playerField) =
    .ok site.player
  worldType : ∃ t, FieldType.parse site.world.descriptor = .ok t ∧ t.kind = .reference
  playerType : ∃ t, FieldType.parse site.player.descriptor = .ok t ∧ t.kind = .reference
  room : (injection.supply site.world site.player draft.pool).2.count ≤ maxSlots
  discards : draft.code.Discards anchor site.discard

/-- There is but one site. -/
theorem Suits.unique [Build] {site site' : SpliceSite} {method : Method} {anchor : Nat}
    {injection : Injection} {draft : Draft} (h : site.Suits method anchor injection draft)
    (h' : site'.Suits method anchor injection draft) : site = site' := by
  obtain ⟨types, slots, world, player, discard⟩ := site
  obtain ⟨types', slots', world', player', discard'⟩ := site'
  obtain rfl : types = types' := Except.ok.inj (h.types.symm.trans h'.types)
  obtain rfl : slots = slots' := Except.ok.inj (h.counted.symm.trans h'.counted)
  obtain rfl : world = world' := Except.ok.inj (h.world.symm.trans h'.world)
  obtain rfl : player = player' := Except.ok.inj (h.player.symm.trans h'.player)
  obtain rfl : discard = discard' := h.discards.unique h'.discards
  rfl

end SpliceSite

/-! ### The splice -/

namespace SpliceSite

/-- Whether `draft'` is what a splice at a site leaves of `draft`, where the handler call names the
members `m`. -/
structure Yields (site : SpliceSite) (anchor : Nat) (injection : Injection)
    (draft draft' : Draft) (m : HandlerMembers) : Prop where
  supplied : injection.supply site.world site.player draft.pool = (m, draft'.pool)
  extension : draft.pool.Extends draft'.pool
  members : m.AreOf injection
  resolve : m.Resolve draft'.pool
  body : draft.code.TakesCall draft'.code anchor site.discard
    [.storeLocal (UInt16.ofNat (site.slot draft.code)) .int, .loadField m.holder true,
      .loadLocal 0 .reference, .loadField m.world false, .loadLocal 0 .reference,
      .loadField m.player false, .loadLocal 1 .int, .loadLocal 2 .int, .loadLocal 3 .int,
      .loadLocal (UInt16.ofNat (site.slot draft.code)) .int, .invoke m.handler .virtual]
    (Renumber.spliced anchor 11 site.discard)

/-- What a splice at a site answers. -/
def spliced (site : SpliceSite) (code : Code) (anchor : Nat) : Spliced :=
  ⟨UInt16.ofNat (site.slot code), .int, anchor + 1, anchor + 12, site.discard + 11⟩

end SpliceSite

variable {site : SpliceSite} {method : Method} {anchor : Nat} {injection : Injection}
  {spliced : Spliced} {draft draft' : Draft} {m : HandlerMembers}

/-- A splice that succeeds has found a site. -/
theorem IsSplice.exists_site [Build] (h : IsSplice method anchor injection spliced draft draft' m)
    (hpool : draft.pool.count ≤ maxSlots) : ∃ site : SpliceSite,
      site.Suits method anchor injection draft ∧ spliced = site.spliced draft.code anchor ∧
        site.Yields anchor injection draft draft' m := by
  obtain ⟨hstatic, d, hd, hkinds⟩ := checkCoordinates_eq_ok_iff.mp h.coordinates
  obtain ⟨slots, hslots, hfree, hslot⟩ := freeSlot_eq_ok_iff.mp h.slot
  rw [Method.parameterSlots_eq_ok_iff hd, hstatic] at hslots
  obtain ⟨world, player, hworld, hplayer, hworldType, hplayerType, hm⟩ := h.asked
  obtain ⟨hsupply, hroom⟩ := ((injection.realizes_members world player).eq_ok_iff hpool).mp hm
  obtain ⟨discard, hdiscard, hdiscards⟩ := h.exists_discards
  refine ⟨⟨d, slots, world, player, discard⟩, ⟨h.callee, hstatic, hd, hkinds, hslots, hfree,
    hworld, hplayer, checkReference_eq_ok_iff.mp hworldType,
    checkReference_eq_ok_iff.mp hplayerType, ?_, hdiscards⟩, ?_, hsupply, h.extension, h.members,
    (h.resolve hpool).2, ?_⟩
  · rw [hsupply]
    exact hroom
  · obtain ⟨slot, kind, start, stop, removed⟩ := spliced
    obtain rfl := h.kind
    obtain rfl := h.start
    obtain rfl := h.stop
    obtain rfl := hslot
    obtain rfl := hdiscard
    rfl
  · have hbody := h.takesCall hdiscard
    rw [hslot] at hbody
    exact hbody

/-- A splice succeeds at a site. -/
theorem SpliceSite.Suits.exists_isSplice [Build] (h : site.Suits method anchor injection draft)
    (hpool : draft.pool.count ≤ maxSlots) : ∃ draft' m,
      IsSplice method anchor injection (site.spliced draft.code anchor) draft draft' m := by
  obtain ⟨_, _, _, hcall, -⟩ := id h.callee
  obtain ⟨m, pool, hsupply⟩ : ∃ m pool,
      injection.supply site.world site.player draft.pool = (m, pool) := ⟨_, _, rfl⟩
  have hroom := h.room
  rw [hsupply] at hroom
  have hmembers := ((injection.realizes_members site.world site.player).eq_ok_iff hpool).mpr
    ⟨hsupply, hroom⟩
  -- The `pop` is found in the extended body, further on.
  obtain ⟨hremoved, hfree⟩ := (Code.discards_insert_iff (List.getElem?_eq_some_iff.mp hcall).1
    m.targets_call).mpr ⟨site.discard, rfl, h.discards⟩
  have hpop := (discardBehind_drop_eq_ok_iff.mp hremoved).2.1
  refine ⟨⟨_, pool⟩, m, h.callee, ?_, rfl, ?_, rfl, rfl, ?_, hremoved, .pop,
    Code.remove_eq_ok_iff.mpr ⟨hpop, hfree, rfl⟩⟩
  · exact checkCoordinates_eq_ok_iff.mpr ⟨h.receiver, site.types, h.types, h.coordinates⟩
  · refine freeSlot_eq_ok_iff.mpr ⟨site.slots, ?_, h.free, rfl⟩
    rw [Method.parameterSlots_eq_ok_iff h.types, h.receiver]
    exact h.counted
  · exact ⟨site.world, site.player, h.world, h.player, checkReference_eq_ok_iff.mpr h.worldType,
      checkReference_eq_ok_iff.mpr h.playerType, hmembers⟩

/-- A splice succeeds exactly if there is a site for it, and leaves just what the site says.  The
slots of the pool are those that two bytes can count, as they are in every pool that is read or
grows; the positions in the body may lie anywhere. -/
theorem splice_succeeds_exactly [Build] (hpool : draft.pool.count ≤ maxSlots) (log : List LogLine) :
    ((∃ spliced s', splice method anchor injection ⟨draft, log⟩ = .ok spliced s') ↔
      ∃ site : SpliceSite, site.Suits method anchor injection draft) ∧
    ∀ site : SpliceSite, site.Suits method anchor injection draft → ∃ s' m,
      splice method anchor injection ⟨draft, log⟩ = .ok (site.spliced draft.code anchor) s' ∧
        site.Yields anchor injection draft s'.value m := by
  refine ⟨⟨?_, ?_⟩, ?_⟩
  · rintro ⟨spliced, s', h⟩
    obtain ⟨m, hspliced⟩ := splice_spec h
    obtain ⟨site, hsite, -⟩ := hspliced.exists_site hpool
    exact ⟨site, hsite⟩
  · rintro ⟨site, hsite⟩
    obtain ⟨draft', m, hspliced⟩ := hsite.exists_isSplice hpool
    obtain ⟨log', h⟩ := exists_splice_iff (s := ⟨draft, log⟩).mpr ⟨m, hspliced⟩
    exact ⟨_, _, h⟩
  · intro site hsite
    obtain ⟨draft', m, hspliced⟩ := hsite.exists_isSplice hpool
    obtain ⟨site', hsite', -, hyields⟩ := hspliced.exists_site hpool
    obtain rfl := hsite.unique hsite'
    obtain ⟨log', h⟩ := exists_splice_iff (s := ⟨draft, log⟩).mpr ⟨m, hspliced⟩
    exact ⟨_, m, h, hyields⟩

/-- A body with a handler that ends at the `pop`, lines that start there and at the end of the code,
and a frame behind it. -/
def listedBody : Code where
  maxStack := 1
  maxLocals := 4
  instructions := [.jump 167 1, .invoke ⟨14, "A", "tryHarvestBlock", "()Z"⟩ .static, .other 0 [],
    .pop, .exit none]
  handlers := [⟨0, 3, 4, 0⟩]
  attributes := [.lineNumbers 10 [⟨0, 1⟩, ⟨3, 2⟩, ⟨5, 3⟩], .stackMap 15 [⟨4, .same⟩]]

/-- The method whose body is `listedBody`. -/
def listedMethod : Method :=
  ⟨1, 8, 9, "uncheckedTryHarvestBlock", "(III)V", [.code 10 listedBody]⟩

def listedDraft : Draft := ⟨listedBody, (Transformer.harvestClass listedBody).pool⟩

/-- Where `listedBody` takes the call: the second instruction has the result, and the fourth one
discards it. -/
def listedSite : SpliceSite where
  types := ⟨[.int, .int, .int], none⟩
  slots := 4
  world := ⟨"theWorld", "LW;"⟩
  player := ⟨"thisPlayerMP", "LW;"⟩
  discard := 3

attribute [local instance] Build.checked

theorem suits_listedSite : listedSite.Suits listedMethod 1 idleInjection listedDraft where
  callee := ⟨⟨14, "A", "tryHarvestBlock", "()Z"⟩, .static, ⟨[], some .boolean⟩, rfl,
    by decide +kernel, rfl⟩
  receiver := by decide
  types := by decide +kernel
  coordinates := rfl
  counted := rfl
  free := by decide
  world := rfl
  player := rfl
  worldType := ⟨.object "W", by decide +kernel, rfl⟩
  playerType := ⟨.object "W", by decide +kernel, rfl⟩
  room := by decide +kernel
  discards := by
    refine ⟨by decide, ?_, rfl, by decide, by decide⟩
    intro p hlt hlt'
    have hlt' : p < 3 := hlt'
    obtain rfl : p = 2 := by omega
    exact ⟨.other 0 [], rfl, rfl⟩

/-- What stood at the `pop` or behind it stands behind the call; only the line at the end is
gone. -/
theorem splice_succeeds_exactly_listedBody : listedDraft.pool.count ≤ maxSlots ∧
    listedSite.Suits listedMethod 1 idleInjection listedDraft ∧
    ∃ (s' : Traced Draft) (m : HandlerMembers),
      splice listedMethod 1 idleInjection ⟨listedDraft, []⟩ = .ok ⟨4, .int, 2, 13, 14⟩ s' ∧
      s'.value.code.instructions[13]? = some (.other 0 []) ∧
      s'.value.code.instructions[12]? = some (.invoke m.handler .virtual) ∧
      s'.value.code.handlers = [⟨0, 14, 14, 0⟩] ∧
      s'.value.code.attributes =
        [.lineNumbers 10 [⟨0, 1⟩, ⟨14, 2⟩], .stackMap 15 [⟨14, .same⟩]] := by
  have hpool : listedDraft.pool.count ≤ maxSlots := by decide
  obtain ⟨s', m, h, hyields⟩ := (splice_succeeds_exactly hpool []).2 listedSite suits_listedSite
  have hbody := hyields.body
  refine ⟨hpool, suits_listedSite, s', m, h, hbody.moved 2 (by decide), hbody.put 10 (by decide),
    hbody.handlers, ?_⟩
  rw [hbody.attributes, hbody.length]
  rfl

end ClassGraft
