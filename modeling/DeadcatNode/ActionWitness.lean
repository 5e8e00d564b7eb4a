import DeadcatNode.BinaryMarketSpend
import DeadcatNode.KeyEncoding
import DeadcatNode.SimplicityValues

/-!
# The action in the witness

The action of a covenant input is a value of one of five types, each of which keeps
the payload of one action and has lost the others.  The decoder walks the value by
hand and reads words bit by bit.
-/

namespace DeadcatNode

open Checked KeyEncoding Simplicity

/-! ## Words -/

/-- The bits which share one byte of the output. -/
def packByte (bits : List Bool) : UInt8 :=
  bits.zipIdx.foldl (fun byte entry =>
    if entry.1 then byte ||| 1 <<< UInt8.ofNat (7 - entry.2) else byte) 0

def packBytes : ℕ → List Bool → Bytes
  | 0, _ => []
  | count + 1, bits => packByte (bits.take 8) :: packBytes count (bits.drop 8)

def wordBytes (count : ℕ) (value : Value) : Option Bytes :=
  value.toWord.bind fun word =>
    if 2 ^ word.1 = count * 8 then some (packBytes count word.2) else none

def decodeU8 (value : Value) : Except InterpretError ℕ :=
  okOr ((wordBytes 1 value).map KeyEncoding.value) (.inconsistent "malformed u8 witness value")

def decodeU32 (value : Value) : Except InterpretError ℕ :=
  okOr ((wordBytes 4 value).map KeyEncoding.value) (.inconsistent "malformed u32 witness value")

def decodeBool (value : Value) : Except InterpretError Bool := do
  let word ← okOr (value.toWord.filter fun word => word.1 = 0)
    (.inconsistent "malformed bool witness value")
  okOr word.2.head? (.inconsistent "malformed bool witness value")

/-- A signature is kept as the number of its bytes. -/
def decodeSignature (value : Value) : Except InterpretError ℕ :=
  okOr ((wordBytes 64 value).map KeyEncoding.value)
    (.inconsistent "malformed Signature witness value")

theorem toNat_packByte : ∀ bits : List.Vector Bool 8,
    (packByte bits.toList).toNat = number bits.toList := by
  decide +kernel

theorem value_packBytes {count : ℕ} {bits : List Bool} (hlength : bits.length = count * 8) :
    value (packBytes count bits) = number bits ∧ (packBytes count bits).length = count := by
  induction count generalizing bits with
  | zero =>
    rw [zero_mul] at hlength
    rw [List.eq_nil_of_length_eq_zero hlength]
    exact ⟨rfl, rfl⟩
  | succ count ih =>
    have hfirst : (bits.take 8).length = 8 := by
      rw [List.length_take]
      omega
    have hrest : (bits.drop 8).length = count * 8 := by
      rw [List.length_drop]
      omega
    obtain ⟨hvalue, hwidth⟩ := ih hrest
    have hbyte : (packByte (bits.take 8)).toNat = number (bits.take 8) :=
      toNat_packByte ⟨bits.take 8, hfirst⟩
    have hsplit : number bits = number (bits.take 8) * 2 ^ (count * 8) + number (bits.drop 8) := by
      rw [← hrest, ← number_append, List.take_append_drop]
    have hradix : 256 ^ count = 2 ^ (count * 8) := by
      rw [mul_comm, pow_mul]
      rfl
    refine ⟨?_, by rw [packBytes, List.length_cons, hwidth]⟩
    rw [packBytes, value_cons, hwidth, hvalue, hbyte, hsplit, hradix, mul_comm]

theorem wordBytes_eq_some {count n x : ℕ} {word : Value} (hcount : 2 ^ n = count * 8) :
    (wordBytes count word).map value = some x ↔ x < 2 ^ 2 ^ n ∧ word = .ofWord n x := by
  have hread : ∀ {bits : List Bool}, bits.length = 2 ^ n → value (packBytes count bits) =
      number bits := fun hlength => (value_packBytes (hlength.trans hcount)).1
  simp only [wordBytes, Option.map_eq_some_iff, Option.bind_eq_some_iff, Prod.exists,
    Value.toWord_eq_some]
  constructor
  · rintro ⟨bytes, ⟨m, bits, ⟨hty, rfl⟩, hbytes⟩, rfl⟩
    split at hbytes
    · next hwidth =>
      cases hbytes
      obtain rfl : m = n := Nat.pow_right_injective le_rfl (hwidth.trans hcount.symm)
      obtain ⟨hword, hlength⟩ := Value.eq_ofWord hty
      rw [hread hlength]
      exact ⟨hlength ▸ number_lt _, hword⟩
    · cases hbytes
  · rintro ⟨hlt, rfl⟩
    refine ⟨_, ⟨n, _, ⟨Value.ty_ofWord n x, rfl⟩, if_pos hcount⟩, ?_⟩
    rw [hread (Value.eq_ofWord (Value.ty_ofWord n x)).2, Value.number_ofWord hlt]

theorem decodeU32_eq_ok {word : Value} {x : ℕ} :
    decodeU32 word = .ok x ↔ x < 2 ^ 32 ∧ word = .ofWord 5 x := by
  have hwidth : 2 ^ 5 = 4 * 8 := rfl
  rw [decodeU32, okOr_eq_ok, wordBytes_eq_some hwidth, hwidth]

theorem decodeSignature_eq_ok {word : Value} {x : ℕ} :
    decodeSignature word = .ok x ↔ x < 2 ^ 512 ∧ word = .ofWord 9 x := by
  have hwidth : 2 ^ 9 = 64 * 8 := rfl
  rw [decodeSignature, okOr_eq_ok, wordBytes_eq_some hwidth, hwidth]

theorem decodeBool_eq_ok {word : Value} {bit : Bool} :
    decodeBool word = .ok bit ↔ word = .ofWord 0 bit.toNat := by
  simp only [decodeBool, bind_eq_ok, okOr_eq_ok, Option.filter_eq_some_iff, Prod.exists,
    Value.toWord_eq_some, decide_eq_true_eq]
  constructor
  · rintro ⟨n, bits, ⟨⟨hty, rfl⟩, rfl⟩, hhead⟩
    obtain ⟨hword, hlength⟩ := Value.eq_ofWord hty
    obtain ⟨only, hbits⟩ := List.length_eq_one_iff.mp hlength
    rw [hbits] at hhead hword
    cases hhead
    rw [hword]
    cases bit <;> rfl
  · rintro rfl
    refine ⟨0, _, ⟨⟨Value.ty_ofWord 0 _, rfl⟩, rfl⟩, ?_⟩
    cases bit <;> rfl

/-! ## Actions -/

def resolveActionPayloadType : Final := .product (.word 5) (.product (.word 0) (.word 9))

def marketActionTypes : List Final :=
  [.sum (.sum (.word 5) .unit) .unit, .sum (.sum .unit (.word 5)) .unit,
    .sum .unit (.sum resolveActionPayloadType .unit),
    .sum .unit (.sum .unit (.sum (.word 5) .unit)), .sum .unit (.sum .unit (.sum .unit (.word 5)))]

def malformedBranch : InterpretError := .inconsistent "malformed ACTION sum branch"

def malformedResolve : InterpretError := .inconsistent "malformed Resolve ACTION payload"

def decodeMarketAction (value : Value) : Except InterpretError BinaryMarketCoordinatorAction := do
  require (value.ty ∈ marketActionTypes) (.inconsistent "ACTION has the wrong structural type")
  match value.asLeft with
  | some issueOrCancel =>
    match issueOrCancel.asLeft with
    | some issue => return .issue (← decodeU32 issue)
    | none =>
      let cancel ← okOr issueOrCancel.asRight malformedBranch
      return .cancel (← decodeU32 cancel)
  | none =>
    let resolveOrTerminal ← okOr value.asRight malformedBranch
    match resolveOrTerminal.asLeft with
    | some resolve =>
      let (outputBase, outcomeAndSignature) ← okOr resolve.asProduct malformedResolve
      let (outcomeYes, signature) ← okOr outcomeAndSignature.asProduct malformedResolve
      let outcome := if ← decodeBool outcomeYes then BinaryOutcome.yes else .no
      return .resolve (← decodeU32 outputBase) ⟨outcome, ← decodeSignature signature⟩
    | none =>
      let expireOrRedeem ← okOr resolveOrTerminal.asRight malformedBranch
      match expireOrRedeem.asLeft with
      | some expire => return .expire (← decodeU32 expire)
      | none =>
        let redeem ← okOr expireOrRedeem.asRight malformedBranch
        return .redeem (← decodeU32 redeem)

/-- The value of an action, at the type which keeps its payload. -/
def BinaryMarketCoordinatorAction.generated : BinaryMarketCoordinatorAction → Value
  | .issue outputBase => .left (.left (.ofWord 5 outputBase) .unit) .unit
  | .cancel outputBase => .left (.right .unit (.ofWord 5 outputBase)) .unit
  | .resolve outputBase resolution => .right .unit (.left (.product (.ofWord 5 outputBase)
      (.product (.ofWord 0 (decide (resolution.outcome = .yes)).toNat)
        (.ofWord 9 resolution.signature))) .unit)
  | .expire outputBase => .right .unit (.right .unit (.left (.ofWord 5 outputBase) .unit))
  | .redeem outputBase => .right .unit (.right .unit (.right .unit (.ofWord 5 outputBase)))

/-- Window indexes are words of 32 bits, signatures have 64 bytes. -/
def BinaryMarketCoordinatorAction.Fits : BinaryMarketCoordinatorAction → Prop
  | .resolve outputBase resolution => outputBase < 2 ^ 32 ∧ resolution.signature < 2 ^ 512
  | .issue outputBase | .cancel outputBase | .expire outputBase | .redeem outputBase =>
    outputBase < 2 ^ 32

section

variable {action : BinaryMarketCoordinatorAction} {value : Value}

theorem generated_ty (action : BinaryMarketCoordinatorAction) :
    action.generated.ty ∈ marketActionTypes := by
  cases action <;> simp [BinaryMarketCoordinatorAction.generated, Value.ty, marketActionTypes,
    resolveActionPayloadType]

theorem decodeMarketAction_generated (hfits : action.Fits) :
    decodeMarketAction action.generated = .ok action := by
  rw [decodeMarketAction, bind_eq_ok]
  refine ⟨(), require_eq_ok.mpr (generated_ty action), ?_⟩
  cases action with
  | resolve outputBase resolution =>
    obtain ⟨outcome, signature⟩ := resolution
    have hbool : decodeBool (.ofWord 0 (decide (outcome = .yes)).toNat) =
        .ok (decide (outcome = .yes)) := decodeBool_eq_ok.mpr rfl
    have hbase := decodeU32_eq_ok.mpr ⟨hfits.1, rfl⟩
    have hsignature := decodeSignature_eq_ok.mpr ⟨hfits.2, rfl⟩
    simp only [BinaryMarketCoordinatorAction.generated, Value.asLeft, Value.asRight,
      Value.asProduct, okOr, ok_bind, hbool, hbase, hsignature]
    cases outcome <;> rfl
  | _ =>
    have hbase := decodeU32_eq_ok.mpr ⟨hfits, rfl⟩
    simp only [BinaryMarketCoordinatorAction.generated, Value.asLeft, Value.asRight, okOr, ok_bind,
      hbase]
    rfl

theorem branch_of_decodeMarketAction (hdecode : decodeMarketAction value = .ok action) :
    value.branch ≠ .unit := by
  simp only [decodeMarketAction, bind_eq_ok] at hdecode
  obtain ⟨-, -, hdecode⟩ := hdecode
  rcases value with _ | ⟨_ | _ | _ | _, _⟩ | ⟨_, _ | _ | ⟨_, _ | _ | _ | _⟩ | _⟩ | _
  all_goals simp only [Value.asLeft, Value.asRight, okOr, ok_bind, bind_eq_ok, pure_eq_ok,
    reduceCtorEq, false_and, exists_false, decodeU32_eq_ok] at hdecode
  -- a resolution is a product
  case right.left =>
    obtain ⟨pair, hpair, -⟩ := hdecode
    rw [Value.asProduct_eq_some.mp (okOr_eq_ok.mp hpair)]
    simp [Value.branch]
  all_goals
    obtain ⟨outputBase, ⟨-, rfl⟩, -⟩ := hdecode
    simp [Value.branch, Value.ofWord]

theorem eq_generated_of_ty (hty : value.ty ∈ marketActionTypes) :
    value.branch = .unit ∨ ∃ action : BinaryMarketCoordinatorAction,
      action.Fits ∧ action.generated = value := by
  simp only [marketActionTypes, resolveActionPayloadType, List.mem_cons, List.not_mem_nil,
    or_false, Value.ty_eq_sum, Value.ty_eq_product, Value.ty_eq_unit, Value.ty_eq_word] at hty
  rcases hty with hty | hty | hty | hty | hty
  · rcases hty with ⟨_, ⟨_, ⟨base, hbase, rfl⟩, rfl⟩ | ⟨_, rfl, rfl⟩, rfl⟩ | ⟨_, rfl, rfl⟩
    · exact .inr ⟨.issue base, hbase, rfl⟩
    · exact .inl rfl
    · exact .inl rfl
  · rcases hty with ⟨_, ⟨_, rfl, rfl⟩ | ⟨_, ⟨base, hbase, rfl⟩, rfl⟩, rfl⟩ | ⟨_, rfl, rfl⟩
    · exact .inl rfl
    · exact .inr ⟨.cancel base, hbase, rfl⟩
    · exact .inl rfl
  · rcases hty with ⟨_, rfl, rfl⟩ | ⟨_, ⟨_, ⟨_, _, ⟨base, hbase, rfl⟩, ⟨_, _, ⟨bit, hbit, rfl⟩,
      ⟨signature, hsignature, rfl⟩, rfl⟩, rfl⟩, rfl⟩ | ⟨_, rfl, rfl⟩, rfl⟩
    · exact .inl rfl
    · have hwidth : 2 ^ 9 = 512 := rfl
      have hcases : bit = 0 ∨ bit = 1 := by
        rw [pow_zero, pow_one] at hbit
        omega
      rw [hwidth] at hsignature
      rcases hcases with rfl | rfl
      · exact .inr ⟨.resolve base ⟨.no, signature⟩, ⟨hbase, hsignature⟩, rfl⟩
      · exact .inr ⟨.resolve base ⟨.yes, signature⟩, ⟨hbase, hsignature⟩, rfl⟩
    · exact .inl rfl
  · rcases hty with ⟨_, rfl, rfl⟩ | ⟨_, ⟨_, rfl, rfl⟩ | ⟨_, ⟨_, ⟨base, hbase, rfl⟩, rfl⟩ |
      ⟨_, rfl, rfl⟩, rfl⟩, rfl⟩
    · exact .inl rfl
    · exact .inl rfl
    · exact .inr ⟨.expire base, hbase, rfl⟩
    · exact .inl rfl
  · rcases hty with ⟨_, rfl, rfl⟩ | ⟨_, ⟨_, rfl, rfl⟩ | ⟨_, ⟨_, rfl, rfl⟩ |
      ⟨_, ⟨base, hbase, rfl⟩, rfl⟩, rfl⟩, rfl⟩
    · exact .inl rfl
    · exact .inl rfl
    · exact .inl rfl
    · exact .inr ⟨.redeem base, hbase, rfl⟩

end

/-- The decoder inverts the encoding of actions, and it reads every value of an action type which
does not end in a branch that was lost. -/
theorem action_witness_round_trip : (∀ action : BinaryMarketCoordinatorAction, action.Fits →
      action.generated.ty ∈ marketActionTypes ∧ decodeMarketAction action.generated = .ok action) ∧
    (∀ action action' : BinaryMarketCoordinatorAction, action.Fits → action'.Fits →
      action.generated = action'.generated → action = action') ∧
    ∀ value : Value, value.ty ∈ marketActionTypes →
      (value.branch ≠ .unit → ∃! action, decodeMarketAction value = .ok action) ∧
      (value.branch = .unit → ∀ action, decodeMarketAction value ≠ .ok action) := by
  refine ⟨fun action hfits => ⟨generated_ty action, decodeMarketAction_generated hfits⟩, ?_, ?_⟩
  · intro action action' hfits hfits' hsame
    have hdecode := decodeMarketAction_generated hfits
    rw [hsame, decodeMarketAction_generated hfits'] at hdecode
    exact (Except.ok.inj hdecode).symm
  · intro value hty
    refine ⟨fun hkept => ?_, fun hlost action hdecode => branch_of_decodeMarketAction hdecode hlost⟩
    rcases eq_generated_of_ty hty with hlost | ⟨action, hfits, rfl⟩
    · exact absurd hlost hkept
    · have hdecode := decodeMarketAction_generated hfits
      refine ⟨action, hdecode, fun action' hdecode' => ?_⟩
      rw [hdecode] at hdecode'
      exact (Except.ok.inj hdecode').symm

/-! ## The values of a witness -/

/-- What the interpreter is given in place of a value: its kind and its content. -/
def witnessValue (value : Value) : Except InterpretError WitnessValue :=
  if value.ty = .word 3 then return .slot (← decodeU8 value)
  else if value.ty ∈ marketActionTypes then return .action (← decodeMarketAction value)
  else return .other

/-- A value of a node is decoded according to its type. -/
def MarketWitness.read (found : MarketWitness) (value : Value) :
    Except InterpretError MarketWitness :=
  if value.ty = .word 3 then do
    let slot ← decodeU8 value
    require (found.1 = none) (.inconsistent "duplicate SLOT witness")
    return (some slot, found.2)
  else if value.ty ∈ marketActionTypes then do
    let action ← decodeMarketAction value
    require (found.2 = none) (.inconsistent "duplicate ACTION witness")
    return (found.1, some action)
  else .error (.inconsistent "unexpected binary-market witness value type")

def decodeMarketWitness (values : List Value) (expectedSlot : BinaryMarketSlot) :
    Except InterpretError BinaryMarketCoordinatorAction :=
  values.foldlM MarketWitness.read (none, none) >>= MarketWitness.action expectedSlot

theorem read_eq_ok (found : MarketWitness) (value : Value) (found' : MarketWitness) :
    found.read value = .ok found' ↔
      ∃ decoded, witnessValue value = .ok decoded ∧ found.take decoded = .ok found' := by
  unfold MarketWitness.read witnessValue
  split_ifs with hslot haction
  · simp [bind_eq_ok, MarketWitness.take]
  · simp [bind_eq_ok, MarketWitness.take]
  · simp [pure_eq_ok, MarketWitness.take]

/-- The interpreter may work on decoded values: to decode them first and to sort
them by kind afterwards reads the same action. -/
theorem decodeMarketWitness_eq_ok {values : List Value} {slot : BinaryMarketSlot}
    {action : BinaryMarketCoordinatorAction} :
    decodeMarketWitness values slot = .ok action ↔
      ∃ decoded, values.mapM witnessValue = .ok decoded ∧
        decodeMarketWitnessValues decoded slot = .ok action := by
  simp only [decodeMarketWitness, decodeMarketWitnessValues, bind_eq_ok, foldlM_mapM read_eq_ok]
  constructor
  · rintro ⟨found, ⟨decoded, hdecoded, hrun⟩, haction⟩
    exact ⟨decoded, hdecoded, found, hrun, haction⟩
  · rintro ⟨decoded, hdecoded, found, hrun, haction⟩
    exact ⟨found, ⟨decoded, hdecoded, hrun⟩, haction⟩

/-- The first action type has a value which is no action. -/
theorem lost_branch_refused : (Value.right (.sum (.word 5) .unit) .unit).ty ∈ marketActionTypes ∧
      ∀ action, decodeMarketAction (.right (.sum (.word 5) .unit) .unit) ≠ .ok action :=
  ⟨by simp [Value.ty, marketActionTypes], fun _ hdecode => branch_of_decodeMarketAction hdecode rfl⟩

end DeadcatNode
