import DeadcatNode.CheckedExecution
import DeadcatNode.NodeStoreRecords
import DeadcatNode.ProviderRecords
import Mathlib.Algebra.Order.Floor.Div
import Mathlib.Algebra.Order.BigOperators.Group.List

/-!
# Pricing a firm quote

The exact amounts of a quote, from the rate and fee of a pricing policy.  Exact
input is rounded down to an output and exact output is rounded up to an input,
so that the provider never gives more than the rate allows.
-/

namespace DeadcatNode

open Checked

variable {amount : ℕ} {isProvablyUnspendable : Script → Bool}

/-! ## Requests and prices -/

inductive QuoteModelError where
  | zeroAmount
  | sameAssetPair
  | invalidRecipientScript
  | zeroRate
deriving DecidableEq

inductive QuoteAdmissionError where
  | marketNotConfigured
  | pairNotConfigured
  | fillOutsideConfiguredRange
  | venueFeeLimitExceeded
  | invalidPricingDecision
  | feeConsumesInput
  | minimumOutputNotMet
  | maximumInputExceeded
  | amountOverflow
  | roundedAmountIsZero
  | insufficientInventory
  | inventoryTooFragmented
  | selectionSearchBudgetExceeded
  | tooManyProviderInputs
  | missingChangeDestination
  | reusedProviderDestination
  | invalidDerivedQuote
deriving DecidableEq

def QuoteAdmissionError.ofModel : QuoteModelError → QuoteAdmissionError
  | .zeroAmount => .roundedAmountIsZero
  | .sameAssetPair | .invalidRecipientScript | .zeroRate => .invalidDerivedQuote

structure AssetAmount where
  asset : AssetId
  amount : ℕ
deriving DecidableEq

def AssetAmount.new (asset : AssetId) (amount : ℕ) : Except QuoteModelError AssetAmount := do
  require (amount ≠ 0) .zeroAmount
  return ⟨asset, amount⟩

def maxQuoteRecipientScriptBytes : ℕ := 10000

structure QuoteRecipient where
  scriptPubkey : Script
  blindingPublicKey : ℕ
deriving DecidableEq

/-- Whether a script is provably unspendable is asked of the transaction
library. -/
def QuoteRecipient.validate (isProvablyUnspendable : Script → Bool)
    (recipient : QuoteRecipient) : Except QuoteModelError Unit :=
  require (¬(recipient.scriptPubkey = [] ∨ isProvablyUnspendable recipient.scriptPubkey = true ∨
      maxQuoteRecipientScriptBytes < recipient.scriptPubkey.length)) .invalidRecipientScript

/-- Which side is exact, with the taker's guard on the other side. -/
inductive QuoteKind where
  | exactIn (input : AssetAmount) (outputAsset : AssetId) (minimumOutput : ℕ)
  | exactOut (inputAsset : AssetId) (maximumInput : ℕ) (output : AssetAmount)
deriving DecidableEq

namespace QuoteKind

def pair : QuoteKind → AssetId × AssetId
  | .exactIn input outputAsset _ => (input.asset, outputAsset)
  | .exactOut inputAsset _ output => (inputAsset, output.asset)

/-- The amounts which must not be zero: the exact one and the guard. -/
def bounds : QuoteKind → ℕ × ℕ
  | .exactIn input _ minimumOutput => (input.amount, minimumOutput)
  | .exactOut _ maximumInput output => (maximumInput, output.amount)

def validate (kind : QuoteKind) : Except QuoteModelError QuoteKind := do
  require (kind.pair.1 ≠ kind.pair.2) .sameAssetPair
  require (¬(kind.bounds.1 = 0 ∨ kind.bounds.2 = 0)) .zeroAmount
  return kind

end QuoteKind

structure ChainIdentity where
  network : LiquidNetwork
  genesisHash : BlockHash
deriving DecidableEq

structure QuoteContext where
  chain : ChainIdentity
  market : ContractId
  policyAsset : AssetId
deriving DecidableEq

structure FirmQuoteRequest where
  context : QuoteContext
  kind : QuoteKind
  recipient : QuoteRecipient
  maximumInputAssetVenueFee : ℕ
deriving DecidableEq

def FirmQuoteRequest.validate (isProvablyUnspendable : Script → Bool)
    (request : FirmQuoteRequest) : Except QuoteAdmissionError Unit := do
  let _ ← request.kind.validate.mapError .ofModel
  (request.recipient.validate isProvablyUnspendable).mapError .ofModel

def gcd (left right : ℕ) : ℕ :=
  if _hzero : right = 0 then left else gcd right (left % right)
termination_by right
decreasing_by exact Nat.mod_lt _ (Nat.pos_of_ne_zero _hzero)

structure RationalRate where
  numerator : ℕ
  denominator : ℕ
deriving DecidableEq

def RationalRate.new (numerator denominator : ℕ) : Except QuoteModelError RationalRate := do
  require (¬(numerator = 0 ∨ denominator = 0)) .zeroRate
  let divisor := gcd numerator denominator
  return ⟨numerator / divisor, denominator / divisor⟩

structure PricingDecision where
  rate : RationalRate
  inputAssetVenueFee : ℕ
  policyId : ℕ
  revision : ℕ
deriving DecidableEq

def PricingDecision.validate (pricing : PricingDecision) : Except QuoteAdmissionError Unit := do
  require (¬(pricing.rate.numerator = 0 ∨ pricing.rate.denominator = 0)) .invalidPricingDecision
  require (gcd pricing.rate.numerator pricing.rate.denominator = 1) .invalidPricingDecision

structure AmountRange where
  minimum : ℕ
  maximum : ℕ
  nonempty : 0 < minimum ∧ minimum ≤ maximum
deriving DecidableEq

def AmountRange.contains (range : AmountRange) (amount : ℕ) : Prop :=
  range.minimum ≤ amount ∧ amount ≤ range.maximum

instance (range : AmountRange) (amount : ℕ) : Decidable (range.contains amount) := by
  unfold AmountRange.contains
  infer_instance

structure PairLimits where
  input : AmountRange
  output : AmountRange
  maximumProviderInputs : ℕ
  minimumPositiveChange : ℕ
  selectionSearchNodeBudget : ℕ
  inputLimit : 0 < maximumProviderInputs ∧ maximumProviderInputs ≤ maxReservationInputs
  budget_pos : 0 < selectionSearchNodeBudget
deriving DecidableEq

structure QuoteExecution where
  input : AssetAmount
  output : AssetAmount
  inputAssetVenueFee : ℕ
deriving DecidableEq

/-! ## Arithmetic -/

/-- Products of 64-bit values are computed in 128 bits, so only the quotient can
be too large. -/
def checkQuotient (quotient : ℕ) : Except QuoteAdmissionError ℕ := do
  require (quotient < 2 ^ 64) .amountOverflow
  require (quotient ≠ 0) .roundedAmountIsZero
  return quotient

def multiplyDivideFloor (value multiplier divisor : ℕ) : Except QuoteAdmissionError ℕ :=
  checkQuotient (value * multiplier / divisor)

def multiplyDivideCeil (value multiplier divisor : ℕ) : Except QuoteAdmissionError ℕ :=
  let product := value * multiplier
  checkQuotient (product / divisor + if product % divisor = 0 then 0 else 1)

def exactInAmounts (input : AssetAmount) (outputAsset : AssetId)
    (minimumOutput fee : ℕ) (rate : RationalRate) :
    Except QuoteAdmissionError (AssetAmount × AssetAmount) := do
  let pricedInput ← okOr ((checkedSub input.amount fee).filter fun amount => amount ≠ 0)
    .feeConsumesInput
  let outputAmount ← multiplyDivideFloor pricedInput rate.numerator rate.denominator
  require (minimumOutput ≤ outputAmount) .minimumOutputNotMet
  let output ← (AssetAmount.new outputAsset outputAmount).mapError .ofModel
  return (input, output)

def exactOutAmounts (inputAsset : AssetId) (maximumInput : ℕ)
    (output : AssetAmount) (fee : ℕ) (rate : RationalRate) :
    Except QuoteAdmissionError (AssetAmount × AssetAmount) := do
  let pricedInput ← multiplyDivideCeil output.amount rate.denominator rate.numerator
  let grossInput ← okOr (checkedAdd 64 pricedInput fee) .amountOverflow
  require (grossInput ≤ maximumInput) .maximumInputExceeded
  let input ← (AssetAmount.new inputAsset grossInput).mapError .ofModel
  return (input, output)

def quoteAmounts (kind : QuoteKind) (fee : ℕ) (rate : RationalRate) :
    Except QuoteAdmissionError (AssetAmount × AssetAmount) :=
  match kind with
  | .exactIn input outputAsset minimumOutput =>
    exactInAmounts input outputAsset minimumOutput fee rate
  | .exactOut inputAsset maximumInput output =>
    exactOutAmounts inputAsset maximumInput output fee rate

def calculateExecution (isProvablyUnspendable : Script → Bool)
    (request : FirmQuoteRequest) (pricing : PricingDecision)
    (limits : PairLimits) : Except QuoteAdmissionError QuoteExecution := do
  request.validate isProvablyUnspendable
  pricing.validate
  let fee := pricing.inputAssetVenueFee
  require (fee ≤ request.maximumInputAssetVenueFee) .venueFeeLimitExceeded
  let (input, output) ← quoteAmounts request.kind fee pricing.rate
  require (limits.input.contains input.amount ∧
    limits.output.contains output.amount) .fillOutsideConfiguredRange
  return ⟨input, output, fee⟩

/-! ## Rounding -/

theorem checkQuotient_eq_ok {quotient : ℕ} :
    checkQuotient quotient = .ok amount ↔ amount = quotient ∧ quotient < 2 ^ 64 ∧ quotient ≠ 0 := by
  simp only [checkQuotient, bind_eq_ok, require_eq_ok, pure_eq_ok]
  constructor
  · rintro ⟨-, hlt, -, hne, rfl⟩
    exact ⟨rfl, hlt, hne⟩
  · rintro ⟨rfl, hlt, hne⟩
    exact ⟨(), hlt, (), hne, rfl⟩

theorem div_add_ite_eq_ceilDiv {product divisor : ℕ} (hpos : 0 < divisor) :
    product / divisor + (if product % divisor = 0 then 0 else 1) = product ⌈/⌉ divisor := by
  have hsplit := Nat.div_add_mod product divisor
  have hrest := Nat.mod_lt product hpos
  apply le_antisymm
  · have hupper := le_smul_ceilDiv hpos (b := product)
    rw [smul_eq_mul] at hupper
    by_cases hzero : product % divisor = 0
    · rw [if_pos hzero, Nat.add_zero]
      exact Nat.div_le_of_le_mul hupper
    · rw [if_neg hzero, Nat.add_one_le_iff, Nat.div_lt_iff_lt_mul hpos]
      have hne : product ≠ product ⌈/⌉ divisor * divisor := by
        intro heq
        rw [heq, Nat.mul_mod_left] at hzero
        exact hzero rfl
      rw [Nat.mul_comm] at hupper
      omega
  · apply (ceilDiv_le_iff_le_smul hpos).mpr
    rw [smul_eq_mul]
    by_cases hzero : product % divisor = 0
    · rw [if_pos hzero, Nat.add_zero]
      omega
    · rw [if_neg hzero, Nat.mul_add, Nat.mul_one]
      omega

theorem multiplyDivideFloor_bounds {value multiplier divisor : ℕ} (hpos : 0 < divisor)
    (hfloor : multiplyDivideFloor value multiplier divisor = .ok amount) :
    amount * divisor ≤ value * multiplier ∧ value * multiplier < (amount + 1) * divisor := by
  obtain ⟨rfl, -, -⟩ := checkQuotient_eq_ok.mp hfloor
  have hlower := Nat.div_mul_le_self (value * multiplier) divisor
  have hupper := Nat.lt_mul_div_succ (value * multiplier) hpos
  rw [Nat.mul_comm divisor] at hupper
  exact ⟨hlower, hupper⟩

theorem multiplyDivideCeil_bounds {value multiplier divisor : ℕ} (hpos : 0 < divisor)
    (hceil : multiplyDivideCeil value multiplier divisor = .ok amount) :
    value * multiplier ≤ amount * divisor ∧ 0 < amount ∧
      (amount - 1) * divisor < value * multiplier := by
  obtain ⟨rfl, -, hne⟩ := checkQuotient_eq_ok.mp hceil
  rw [div_add_ite_eq_ceilDiv hpos] at hne ⊢
  have hupper := le_smul_ceilDiv hpos (b := value * multiplier)
  have hleast : ¬value * multiplier ≤ divisor * (value * multiplier ⌈/⌉ divisor - 1) := by
    intro hle
    have hsmaller := (ceilDiv_le_iff_le_smul hpos).mpr hle
    omega
  rw [smul_eq_mul, Nat.mul_comm divisor] at hupper
  rw [Nat.mul_comm divisor] at hleast
  exact ⟨hupper, by omega, by omega⟩

/-! ## Executions -/

theorem exactInAmounts_eq_ok {input input' output : AssetAmount}
    {outputAsset : AssetId} {minimumOutput fee : ℕ} {rate : RationalRate}
    (hamounts : exactInAmounts input outputAsset minimumOutput fee rate = .ok (input', output)) :
    input' = input ∧ output.asset = outputAsset ∧
      minimumOutput ≤ output.amount ∧ fee < input.amount ∧
      multiplyDivideFloor (input.amount - fee) rate.numerator
        rate.denominator = .ok output.amount := by
  simp only [exactInAmounts, bind_eq_ok, okOr_eq_ok, Option.filter_eq_some_iff,
    checkedSub_eq_some, decide_eq_true_eq, require_eq_ok, AssetAmount.new,
    mapError_eq_ok, pure_eq_ok, Prod.mk.injEq] at hamounts
  obtain ⟨priced, ⟨⟨hle, hsum⟩, hne⟩, amount, hfloor, -, hguard, _, ⟨-, -, rfl⟩,
    rfl, rfl⟩ := hamounts
  have hpriced : input.amount - fee = priced := by omega
  rw [hpriced]
  exact ⟨rfl, rfl, hguard, by omega, hfloor⟩

theorem exactOutAmounts_eq_ok {input output output' : AssetAmount}
    {inputAsset : AssetId} {maximumInput fee : ℕ} {rate : RationalRate}
    (hamounts : exactOutAmounts inputAsset maximumInput output fee rate = .ok (input, output')) :
    output' = output ∧ input.asset = inputAsset ∧ input.amount ≤ maximumInput ∧ fee ≤ input.amount ∧
      multiplyDivideCeil output.amount rate.denominator rate.numerator =
        .ok (input.amount - fee) := by
  simp only [exactOutAmounts, bind_eq_ok, okOr_eq_ok, checkedAdd_eq_some,
    require_eq_ok, AssetAmount.new, mapError_eq_ok, pure_eq_ok, Prod.mk.injEq] at hamounts
  obtain ⟨priced, hceil, gross, ⟨hsum, -⟩, -, hguard, _, ⟨-, -, rfl⟩, rfl, rfl⟩ := hamounts
  have hpriced : gross - fee = priced := by omega
  exact ⟨rfl, rfl, hguard, by simp only; omega, by simpa only [hpriced] using hceil⟩

structure QuoteExecution.Fair (execution : QuoteExecution)
    (request : FirmQuoteRequest) (pricing : PricingDecision) : Prop where
  fee : execution.inputAssetVenueFee = pricing.inputAssetVenueFee
  feeGuard : pricing.inputAssetVenueFee ≤ request.maximumInputAssetVenueFee
  rounding : (execution.output.amount : ℤ) * pricing.rate.denominator ≤
    (execution.input.amount - execution.inputAssetVenueFee) * pricing.rate.numerator
  tight : match request.kind with
    | .exactIn input outputAsset minimumOutput =>
      execution.input = input ∧ execution.output.asset = outputAsset ∧
        minimumOutput ≤ execution.output.amount ∧
        (execution.input.amount - execution.inputAssetVenueFee : ℤ) *
            pricing.rate.numerator < (execution.output.amount + 1) * pricing.rate.denominator
    | .exactOut inputAsset maximumInput output =>
      execution.output = output ∧ execution.input.asset = inputAsset ∧
        execution.input.amount ≤ maximumInput ∧
        (execution.input.amount - execution.inputAssetVenueFee - 1 : ℤ) *
            pricing.rate.numerator < execution.output.amount * pricing.rate.denominator

variable {pricing : PricingDecision}

theorem PricingDecision.validate_eq_ok {u : Unit} (hvalid : pricing.validate = .ok u) :
    0 < pricing.rate.numerator ∧ 0 < pricing.rate.denominator := by
  simp only [validate, bind_eq_ok, require_eq_ok] at hvalid
  omega

variable {execution : QuoteExecution}

theorem calculateExecution_eq_ok {request : FirmQuoteRequest} {limits : PairLimits}
    (hexecution : calculateExecution isProvablyUnspendable request pricing limits = .ok execution) :
    pricing.validate = .ok () ∧ pricing.inputAssetVenueFee ≤ request.maximumInputAssetVenueFee ∧
      quoteAmounts request.kind pricing.inputAssetVenueFee pricing.rate =
        .ok (execution.input, execution.output) ∧
      execution.inputAssetVenueFee = pricing.inputAssetVenueFee ∧
      limits.input.contains execution.input.amount ∧
      limits.output.contains execution.output.amount := by
  simp only [calculateExecution, bind_eq_ok, require_eq_ok, pure_eq_ok, Prod.exists] at hexecution
  obtain ⟨_, _, _, hvalid, _, hfee, input, output, hamounts, _, hlimits, rfl⟩ := hexecution
  exact ⟨hvalid, hfee, hamounts, rfl, hlimits⟩

theorem calculateExecution_fair {request : FirmQuoteRequest} {limits : PairLimits}
    (hexecution : calculateExecution isProvablyUnspendable request pricing limits = .ok execution) :
    execution.Fair request pricing := by
  obtain ⟨hvalid, hguard, hamounts, hfee, -⟩ :=
    calculateExecution_eq_ok hexecution
  obtain ⟨hnumerator, hdenominator⟩ := PricingDecision.validate_eq_ok hvalid
  unfold quoteAmounts at hamounts
  cases hkind : request.kind with
  | exactIn input outputAsset minimumOutput =>
    rw [hkind] at hamounts
    obtain ⟨hinput, hasset, hminimum, hlt, hfloor⟩ := exactInAmounts_eq_ok hamounts
    have hbounds := multiplyDivideFloor_bounds hdenominator hfloor
    rw [← hinput] at hlt hbounds
    have hcast : ((execution.input.amount - pricing.inputAssetVenueFee : ℕ) : ℤ)
        = execution.input.amount - pricing.inputAssetVenueFee :=
      Nat.cast_sub hlt.le
    refine ⟨hfee, hguard, ?_, ?_⟩
    · rw [hfee, ← hcast]
      exact_mod_cast hbounds.1
    · rw [hkind]
      refine ⟨hinput, hasset, hminimum, ?_⟩
      rw [hfee, ← hcast]
      exact_mod_cast hbounds.2
  | exactOut inputAsset maximumInput output =>
    rw [hkind] at hamounts
    obtain ⟨houtput, hasset, hmaximum, hle, hceil⟩ := exactOutAmounts_eq_ok hamounts
    have hbounds := multiplyDivideCeil_bounds hnumerator hceil
    rw [← houtput] at hbounds
    have hcast : ((execution.input.amount - pricing.inputAssetVenueFee : ℕ) : ℤ)
        = execution.input.amount - pricing.inputAssetVenueFee :=
      Nat.cast_sub hle
    refine ⟨hfee, hguard, ?_, ?_⟩
    · rw [hfee, ← hcast]
      exact_mod_cast hbounds.1
    · rw [hkind]
      refine ⟨houtput, hasset, hmaximum, ?_⟩
      have hpred : ((execution.input.amount - pricing.inputAssetVenueFee - 1 :
          ℕ) : ℤ) = execution.input.amount - pricing.inputAssetVenueFee - 1 := by
        rw [Nat.cast_sub hbounds.2.1, hcast, Nat.cast_one]
      rw [hfee, ← hpred]
      exact_mod_cast hbounds.2.2

/-! ## Round trips and splits -/

section Feeless

variable (isProvablyUnspendable : Script → Bool) (rate : RationalRate)

def FeelessExactIn (execution : QuoteExecution) : Prop :=
  ∃ request pricing limits input outputAsset minimumOutput,
    calculateExecution isProvablyUnspendable request pricing limits = .ok execution ∧
    request.kind = .exactIn input outputAsset minimumOutput ∧
    pricing.rate = rate ∧ pricing.inputAssetVenueFee = 0

def FeelessExactOut (execution : QuoteExecution) : Prop :=
  ∃ request pricing limits inputAsset maximumInput output,
    calculateExecution isProvablyUnspendable request pricing limits = .ok execution ∧
    request.kind = .exactOut inputAsset maximumInput output ∧
    pricing.rate = rate ∧ pricing.inputAssetVenueFee = 0

variable {isProvablyUnspendable rate}

theorem FeelessExactIn.output_eq (hexact : FeelessExactIn isProvablyUnspendable rate execution) :
    0 < rate.numerator ∧ 0 < rate.denominator ∧ execution.output.amount ≠ 0 ∧
      execution.output.amount = execution.input.amount * rate.numerator / rate.denominator := by
  obtain ⟨request, pricing, limits, input, outputAsset, minimumOutput, hrun, hkind,
    rfl, hfee⟩ := hexact
  obtain ⟨hvalid, -, hamounts, -⟩ := calculateExecution_eq_ok hrun
  obtain ⟨hnumerator, hdenominator⟩ := PricingDecision.validate_eq_ok hvalid
  rw [hkind, hfee] at hamounts
  obtain ⟨hinput, -, -, -, hfloor⟩ := exactInAmounts_eq_ok hamounts
  obtain ⟨houtput, -, hne⟩ := checkQuotient_eq_ok.mp hfloor
  rw [Nat.sub_zero, ← hinput] at houtput hne
  rw [houtput]
  exact ⟨hnumerator, hdenominator, hne, rfl⟩

theorem FeelessExactOut.input_eq (hexact : FeelessExactOut isProvablyUnspendable rate execution) :
    0 < rate.numerator ∧ 0 < rate.denominator ∧
      execution.output.amount * rate.denominator ⌈/⌉ rate.numerator =
        execution.input.amount ∧ execution.input.amount ≠ 0 := by
  obtain ⟨request, pricing, limits, inputAsset, maximumInput, output, hrun, hkind,
    rfl, hfee⟩ := hexact
  obtain ⟨hvalid, -, hamounts, -⟩ := calculateExecution_eq_ok hrun
  obtain ⟨hnumerator, hdenominator⟩ := PricingDecision.validate_eq_ok hvalid
  rw [hkind, hfee] at hamounts
  obtain ⟨houtput, -, -, -, hceil⟩ := exactOutAmounts_eq_ok hamounts
  obtain ⟨hinput, -, hne⟩ := checkQuotient_eq_ok.mp hceil
  rw [Nat.sub_zero, div_add_ite_eq_ceilDiv hnumerator, ← houtput] at hinput
  rw [div_add_ite_eq_ceilDiv hnumerator, ← houtput] at hne
  exact ⟨hnumerator, hdenominator, hinput.symm, by rwa [hinput]⟩

theorem FeelessExactIn.covered (hexact : FeelessExactIn isProvablyUnspendable rate execution) :
    execution.output.amount * rate.denominator ≤ execution.input.amount * rate.numerator := by
  obtain ⟨-, -, -, houtput⟩ := hexact.output_eq
  rw [houtput]
  exact Nat.div_mul_le_self _ _

theorem FeelessExactOut.covered (hexact : FeelessExactOut isProvablyUnspendable rate execution) :
    execution.output.amount * rate.denominator ≤ execution.input.amount * rate.numerator := by
  obtain ⟨hnumerator, -, hinput, -⟩ := hexact.input_eq
  have hcover := le_smul_ceilDiv hnumerator (b := execution.output.amount * rate.denominator)
  rwa [hinput, smul_eq_mul, Nat.mul_comm rate.numerator] at hcover

/-- Floor and ceiling are adjoint: an input which covers an output is at least
the one an exact-out quote asks for. -/
theorem FeelessExactOut.input_le {bought : QuoteExecution}
    (hexact : FeelessExactOut isProvablyUnspendable rate bought)
    (hcover : bought.output.amount * rate.denominator ≤ amount * rate.numerator) :
    bought.input.amount ≤ amount := by
  obtain ⟨hnumerator, -, hinput, -⟩ := hexact.input_eq
  rw [← hinput]
  apply (ceilDiv_le_iff_le_smul hnumerator).mpr
  rwa [smul_eq_mul, Nat.mul_comm rate.numerator]

theorem FeelessExactIn.le_output {sold : QuoteExecution}
    (hexact : FeelessExactIn isProvablyUnspendable rate sold)
    (hcover : amount * rate.denominator ≤ sold.input.amount * rate.numerator) :
    amount ≤ sold.output.amount := by
  obtain ⟨-, hdenominator, -, houtput⟩ := hexact.output_eq
  rw [houtput]
  exact (Nat.le_div_iff_mul_le hdenominator).mpr hcover

theorem FeelessExactIn.multiplyDivideCeil_output {sold : QuoteExecution}
    (hexact : FeelessExactIn isProvablyUnspendable rate sold)
    (hinput : sold.input.amount < 2 ^ 64) :
    ∃ needed ≤ sold.input.amount,
      multiplyDivideCeil sold.output.amount rate.denominator rate.numerator = .ok needed := by
  obtain ⟨hnumerator, hdenominator, hne, -⟩ := hexact.output_eq
  have hneeded : sold.output.amount * rate.denominator ⌈/⌉ rate.numerator ≤ sold.input.amount := by
    apply (ceilDiv_le_iff_le_smul hnumerator).mpr
    rw [smul_eq_mul, Nat.mul_comm rate.numerator]
    exact hexact.covered
  have hpos : sold.output.amount * rate.denominator ⌈/⌉ rate.numerator ≠ 0 := by
    intro hzero
    have hcover := le_smul_ceilDiv hnumerator (b := sold.output.amount * rate.denominator)
    have hproduct := Nat.mul_pos (Nat.pos_of_ne_zero hne) hdenominator
    rw [hzero, smul_zero] at hcover
    omega
  refine ⟨_, hneeded, ?_⟩
  simp only [multiplyDivideCeil, div_add_ite_eq_ceilDiv hnumerator]
  exact checkQuotient_eq_ok.mpr ⟨rfl, by omega, hpos⟩

theorem FeelessExactOut.multiplyDivideFloor_input {bought : QuoteExecution}
    (hexact : FeelessExactOut isProvablyUnspendable rate bought) :
    (∃ given, bought.output.amount ≤ given ∧
      multiplyDivideFloor bought.input.amount rate.numerator rate.denominator =
        .ok given) ∨ 2 ^ 64 ≤ bought.input.amount * rate.numerator / rate.denominator := by
  obtain ⟨hnumerator, hdenominator, hinput, hne⟩ := hexact.input_eq
  have houtput : bought.output.amount ≠ 0 := by
    intro hzero
    rw [← hinput, hzero, Nat.zero_mul, zero_ceilDiv] at hne
    exact hne rfl
  have hgiven : bought.output.amount ≤ bought.input.amount * rate.numerator / rate.denominator :=
    (Nat.le_div_iff_mul_le hdenominator).mpr hexact.covered
  by_cases hfits : bought.input.amount * rate.numerator / rate.denominator < 2 ^ 64
  · left
    exact ⟨_, hgiven, checkQuotient_eq_ok.mpr ⟨rfl, hfits, by omega⟩⟩
  · right
    omega

theorem FeelessExactIn.sum_covered {parts : List QuoteExecution}
    (hparts : ∀ part ∈ parts, FeelessExactIn isProvablyUnspendable rate part) :
    (parts.map fun part => part.output.amount).sum * rate.denominator ≤
      (parts.map fun part => part.input.amount).sum * rate.numerator := by
  rw [← List.sum_map_mul_right, ← List.sum_map_mul_right]
  exact List.sum_le_sum fun part hpart => (hparts part hpart).covered

end Feeless

/-- The rounding of a quote never favours the taker and loses less than a unit;
at a fixed rate without fee, round trips and splits gain nothing. -/
theorem rounding_favours_provider (isProvablyUnspendable : Script → Bool) :
    (∀ request pricing limits execution,
      calculateExecution isProvablyUnspendable request pricing limits =
        .ok execution → execution.Fair request pricing) ∧
    ∀ rate, (∀ sold, FeelessExactIn isProvablyUnspendable rate sold →
        (sold.input.amount < 2 ^ 64 → ∃ needed ≤ sold.input.amount,
          multiplyDivideCeil sold.output.amount rate.denominator rate.numerator = .ok needed) ∧
        ∀ bought, FeelessExactOut isProvablyUnspendable rate bought →
          bought.output.amount = sold.output.amount →
          bought.input.amount ≤ sold.input.amount) ∧
      (∀ bought, FeelessExactOut isProvablyUnspendable rate bought →
        ((∃ given, bought.output.amount ≤ given ∧
            multiplyDivideFloor bought.input.amount rate.numerator rate.denominator = .ok given) ∨
          2 ^ 64 ≤ bought.input.amount * rate.numerator / rate.denominator) ∧
        ∀ sold, FeelessExactIn isProvablyUnspendable rate sold →
          sold.input.amount = bought.input.amount →
          bought.output.amount ≤ sold.output.amount) ∧
      ∀ whole (parts : List QuoteExecution), FeelessExactIn isProvablyUnspendable rate whole →
        (∀ part ∈ parts, FeelessExactIn isProvablyUnspendable rate part) →
        (parts.map fun part => part.input.amount).sum = whole.input.amount →
        (parts.map fun part => part.output.amount).sum ≤ whole.output.amount := by
  refine ⟨fun request pricing limits execution hrun =>
    calculateExecution_fair hrun, fun rate => ⟨?_, ?_, ?_⟩⟩
  · intro sold hsold
    refine ⟨hsold.multiplyDivideCeil_output, fun bought hbought hsame => ?_⟩
    apply hbought.input_le
    rw [hsame]
    exact hsold.covered
  · intro bought hbought
    refine ⟨hbought.multiplyDivideFloor_input, fun sold hsold hsame => ?_⟩
    apply hsold.le_output
    rw [hsame]
    exact hbought.covered
  · intro whole parts hwhole hparts hsum
    apply hwhole.le_output
    rw [← hsum]
    exact FeelessExactIn.sum_covered hparts

/-! A market quoting two units for three, without fee. -/

def samplePricing : PricingDecision := ⟨⟨2, 3⟩, 0, 1, 1⟩

def sampleLimits : PairLimits :=
  ⟨⟨1, 1000, by decide⟩, ⟨1, 1000, by decide⟩, 4, 1, 100, by decide, by decide⟩

def sampleRequest (kind : QuoteKind) : FirmQuoteRequest :=
  ⟨⟨⟨.elementsRegtest, 0⟩, ⟨⟨0, 0⟩⟩, 9⟩, kind, ⟨[1], 0⟩, 5⟩

def sampleSale (amount : ℕ) : FirmQuoteRequest :=
  sampleRequest (.exactIn ⟨7, amount⟩ 8 1)

def samplePurchase (amount : ℕ) : FirmQuoteRequest :=
  sampleRequest (.exactOut 7 1000 ⟨8, amount⟩)

def sampleExecution (input output : ℕ) : QuoteExecution :=
  ⟨⟨7, input⟩, ⟨8, output⟩, 0⟩

theorem feelessExactIn_sampleExecution : ∀ pair ∈ [(10, 6), (9, 6), (3, 2), (7, 4)],
      FeelessExactIn (fun _ => false) samplePricing.rate (sampleExecution pair.1 pair.2) := by
  intro pair hpair
  have hrun : ∀ pair ∈ [(10, 6), (9, 6), (3, 2), (7, 4)],
      calculateExecution (fun _ => false) (sampleSale pair.1) samplePricing
        sampleLimits = .ok (sampleExecution pair.1 pair.2) := by decide +kernel
  exact ⟨sampleSale pair.1, samplePricing, sampleLimits, _, _, _, hrun pair hpair, rfl, rfl, rfl⟩

theorem feelessExactOut_sampleExecution :
    FeelessExactOut (fun _ => false) samplePricing.rate (sampleExecution 9 6) :=
  ⟨samplePurchase 6, samplePricing, sampleLimits, _, _, _, by decide +kernel, rfl, rfl, rfl⟩

/-- Ten units sell for six; buying the six back costs nine, selling those nine
gives six again, and selling three and seven apart gives no more. -/
theorem sample_trades_favour_provider : (sampleExecution 10 6).Fair (sampleSale 10) samplePricing ∧
      (sampleExecution 9 6).input.amount ≤ (sampleExecution 10 6).input.amount ∧
      (sampleExecution 9 6).output.amount ≤ (sampleExecution 9 6).output.amount ∧
      ([sampleExecution 3 2, sampleExecution 7 4].map fun part =>
        part.output.amount).sum ≤ (sampleExecution 10 6).output.amount := by
  have hsale := feelessExactIn_sampleExecution
  have hbought := feelessExactOut_sampleExecution
  obtain ⟨hfair, hrate⟩ := rounding_favours_provider fun _ => false
  obtain ⟨hsold, hback, hsplit⟩ := hrate samplePricing.rate
  refine ⟨hfair _ _ sampleLimits _ (by decide +kernel), ?_, ?_, ?_⟩
  · exact (hsold _ (hsale (10, 6) (by decide))).2 _ hbought rfl
  · exact (hback _ hbought).2 _ (hsale (9, 6) (by decide)) rfl
  · apply hsplit _ _ (hsale (10, 6) (by decide))
    · intro part hpart
      simp only [List.mem_cons, List.not_mem_nil, or_false] at hpart
      rcases hpart with rfl | rfl
      · exact hsale (3, 2) (by decide)
      · exact hsale (7, 4) (by decide)
    · rfl

end DeadcatNode
