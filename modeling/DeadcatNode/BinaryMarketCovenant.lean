import DeadcatNode.BinaryMarketSpend

/-!
# The covenant program of a binary market

The program which locks every output of a market, with the jets as functions of
the spending transaction and the outputs it spends.  A failed assertion or
unwrapping aborts the program.  The program itself returns nothing; the model
returns the outputs which were bound to slot scripts, in the order of the
output window, so that the successor of a market can be read off a run.
-/

namespace DeadcatNode

open Checked

/-- What a covenant input can see: the transaction, the outputs spent by its
inputs, its own index and the slot scripts of its own program. -/
structure CovenantEnv where
  transaction : Transaction
  utxos : List TxOut
  currentIndex : ℕ
  scriptForSlot : ℕ → ℕ

/-- A program which may abort. -/
abbrev Simplicity (α : Type) : Type := Except Unit α

abbrev SlotOutput : Type := ℕ × ℕ

namespace Covenant

/-! ## Jets -/

def assertion (condition : Prop) [Decidable condition] : Simplicity Unit :=
  require condition ()

def unwrap {α : Type} (value : Option α) : Simplicity α := okOr value ()

def unwrapLeft {α β : Type} : α ⊕ β → Simplicity α
  | .inl a => .ok a
  | .inr _ => .error ()

def unwrapRight {α β : Type} : α ⊕ β → Simplicity β
  | .inl _ => .error ()
  | .inr b => .ok b

abbrev Asset1 : Type := CompressedCommitment ⊕ AssetId

abbrev Amount1 : Type := CompressedCommitment ⊕ ℕ

/-- Outputs of a transaction carry an asset and a value; a null one is not
readable. -/
def asset1 : Confidential.Asset → Option Asset1
  | .null => none
  | .explicit asset => some (.inr asset)
  | .confidential odd x => some (.inl ⟨odd, x⟩)

def amount1 : Confidential.Value → Option Amount1
  | .null => none
  | .explicit amount => some (.inr amount)
  | .confidential odd x => some (.inl ⟨odd, x⟩)

def outputAmounts (output : TxOut) : Option (Asset1 × Amount1) := do
  let asset ← asset1 output.asset
  let amount ← amount1 output.value
  return (asset, amount)

def issuanceAmount1 : Confidential.Value → Amount1
  | .null => .inr 0
  | .explicit amount => .inr amount
  | .confidential odd x => .inl ⟨odd, x⟩

def isReissuance (issuance : AssetIssuance) : Bool :=
  issuance.assetBlindingNonce ≠ 0

section

variable (crypto : MarketCrypto) (compiled : CompiledBinaryMarket) (env : CovenantEnv)

def inputScriptHash (index : ℕ) : Option ℕ :=
  (env.utxos[index]?).map fun utxo => crypto.scriptHash utxo.scriptPubkey

def outputScriptHash (index : ℕ) : Option ℕ :=
  (env.transaction.output[index]?).map fun output => crypto.scriptHash output.scriptPubkey

def inputAmount (index : ℕ) : Option (Asset1 × Amount1) :=
  (env.utxos[index]?).bind outputAmounts

def outputAmount (index : ℕ) : Option (Asset1 × Amount1) :=
  (env.transaction.output[index]?).bind outputAmounts

def inputPrevOutpoint (index : ℕ) : Option OutPoint :=
  (env.transaction.input[index]?).map TxIn.previousOutput

/-- A field of the issuance of an input: absent without an issuance. -/
def issuanceField {α : Type} (index : ℕ) (field : TxIn → α) : Option (Option α) :=
  (env.transaction.input[index]?).map fun input =>
    if input.hasIssuance then some (field input) else none

def issuanceAssetAmount (index : ℕ) : Option (Option Amount1) :=
  issuanceField env index fun input => issuanceAmount1 input.assetIssuance.amount

def issuanceTokenAmount (index : ℕ) : Option (Option Amount1) :=
  issuanceField env index fun input =>
    if isReissuance input.assetIssuance then .inr 0
    else issuanceAmount1 input.assetIssuance.inflationKeys

def issuanceEntropy (index : ℕ) : Option (Option ℕ) :=
  issuanceField env index fun input =>
    if isReissuance input.assetIssuance then input.assetIssuance.assetEntropy
    else crypto.generateAssetEntropy input.previousOutput input.assetIssuance.assetEntropy

def issuanceAsset (index : ℕ) : Option (Option AssetId) :=
  issuanceField env index fun input => (crypto.issuanceIds input).1

def issuanceToken (index : ℕ) : Option (Option AssetId) :=
  issuanceField env index fun input => (crypto.issuanceIds input).2

def reissuanceBlinding (index : ℕ) : Option (Option ℕ) :=
  (env.transaction.input[index]?).map fun input =>
    if input.hasIssuance ∧ isReissuance input.assetIssuance then
      some input.assetIssuance.assetBlindingNonce
    else none

/-- The height lock in force; a transaction with only final inputs has none. -/
def lockHeight : ℕ :=
  if (env.transaction.input.any fun input => input.sequence ≠ 0xffffffff) ∧
      env.transaction.lockTime < 500000000 then
    env.transaction.lockTime
  else 0

def checkLockHeight (height : ℕ) : Simplicity Unit :=
  assertion (height ≤ lockHeight env)

def bip0340Verify (key message signature : ℕ) : Simplicity Unit :=
  assertion (crypto.verifySchnorr key message signature = true)

/-! ## Arithmetic -/

def safeAdd32 (a b : ℕ) : Simplicity ℕ := unwrap (checkedAdd 32 a b)

def safeSubtract32 (a b : ℕ) : Simplicity ℕ := unwrap (checkedSub a b)

def safeAdd (a b : ℕ) : Simplicity ℕ := unwrap (checkedAdd 64 a b)

def safeSubtract (a b : ℕ) : Simplicity ℕ := unwrap (checkedSub a b)

def safeMultiply (a b : ℕ) : Simplicity ℕ := unwrap (checkedMul 64 a b)

def ensureNonzero (value : ℕ) : Simplicity Unit := assertion (value ≠ 0)

def collateralPerPair : Simplicity ℕ :=
  safeMultiply compiled.params.basePayout 2

def collateralForPairs (pairs : ℕ) : Simplicity ℕ := do
  let perPair ← collateralPerPair compiled
  safeMultiply pairs perPair

/-! ## Transaction inspection -/

def ensureInputScript (index expected : ℕ) : Simplicity Unit := do
  let hash ← unwrap (inputScriptHash crypto env index)
  assertion (hash = expected)

def ensureOutputScript (index expected : ℕ) : Simplicity Unit := do
  let hash ← unwrap (outputScriptHash crypto env index)
  assertion (hash = expected)

def explicitAmounts (amounts : Option (Asset1 × Amount1)) : Simplicity (AssetId × ℕ) := do
  let (asset, amount) ← unwrap amounts
  let explicitAsset ← unwrapRight asset
  let explicitAmount ← unwrapRight amount
  return (explicitAsset, explicitAmount)

def getInputExplicit (index : ℕ) : Simplicity (AssetId × ℕ) :=
  explicitAmounts (inputAmount env index)

def getOutputExplicit (index : ℕ) : Simplicity (AssetId × ℕ) :=
  explicitAmounts (outputAmount env index)

def ensureInputExplicit (index : ℕ) (expectedAsset : AssetId) : Simplicity ℕ := do
  let (asset, amount) ← getInputExplicit env index
  assertion (asset = expectedAsset)
  return amount

def ensureOutputExplicit (index : ℕ) (expectedAsset : AssetId)
    (expectedAmount : ℕ) : Simplicity Unit := do
  let (asset, amount) ← getOutputExplicit env index
  assertion (asset = expectedAsset)
  assertion (amount = expectedAmount)

def ensureNoIssuance (index : ℕ) : Simplicity Unit := do
  let assetAmount ← unwrap (issuanceAssetAmount env index)
  let tokenAmount ← unwrap (issuanceTokenAmount env index)
  let entropy ← unwrap (issuanceEntropy crypto env index)
  assertion (assetAmount = none)
  assertion (tokenAmount = none)
  assertion (entropy = none)

def rtAbfA : ℕ :=
  0x0101010101010101010101010101010101010101010101010101010101010101

def rtAbfB : ℕ :=
  0x0202020202020202020202020202020202020202020202020202020202020202

def ensureReissuance (index : ℕ) (expectedAsset expectedRt : AssetId)
    (inputIsA : Bool) : Simplicity ℕ := do
  let issuedAsset ← unwrap (issuanceAsset crypto env index)
  let issuedAsset ← unwrap issuedAsset
  let issuedToken ← unwrap (issuanceToken crypto env index)
  let issuedToken ← unwrap issuedToken
  assertion (issuedAsset = expectedAsset)
  assertion (issuedToken = expectedRt)
  let amount ← unwrap (issuanceAssetAmount env index)
  let amount ← unwrap amount
  let amount ← unwrapRight amount
  let tokenAmount ← unwrap (issuanceTokenAmount env index)
  let tokenAmount ← unwrap tokenAmount
  let tokenAmount ← unwrapRight tokenAmount
  assertion (tokenAmount = 0)
  let blinding ← unwrap (reissuanceBlinding env index)
  let blinding ← unwrap blinding
  assertion (blinding = if inputIsA then rtAbfA else rtAbfB)
  ensureNonzero amount
  return amount

def burnScriptHash : ℕ :=
  0x189f40034be7a199f1fa9891668ee3ab6049f82d38c68be70f596eab2e1857b7

def ensureBurnScript (index : ℕ) : Simplicity Unit :=
  ensureOutputScript crypto env index burnScriptHash

def explicitBurnAmount (index : ℕ) (expectedAsset : AssetId) : Simplicity ℕ := do
  let (asset, amount) ← getOutputExplicit env index
  assertion (asset = expectedAsset)
  ensureNonzero amount
  ensureBurnScript crypto env index
  return amount

def marketTokenBurn (index : ℕ) : Simplicity (Bool × ℕ) := do
  let (asset, amount) ← getOutputExplicit env index
  let burnsYes := decide (asset = compiled.params.yesTokenAssetId)
  assertion (asset = if burnsYes then compiled.params.yesTokenAssetId
    else compiled.params.noTokenAssetId)
  ensureNonzero amount
  ensureBurnScript crypto env index
  return (burnsYes, amount)

def ensureCurrentIndex (expected : ℕ) : Simplicity Unit :=
  assertion (env.currentIndex = expected)

def ensureSamePreviousTransaction2 (first second : ℕ) : Simplicity Unit := do
  let first ← unwrap (inputPrevOutpoint env first)
  let second ← unwrap (inputPrevOutpoint env second)
  assertion (first.txid = second.txid)

def ensureSamePreviousTransaction3 (first second third : ℕ) : Simplicity Unit := do
  let first ← unwrap (inputPrevOutpoint env first)
  let second ← unwrap (inputPrevOutpoint env second)
  let third ← unwrap (inputPrevOutpoint env third)
  assertion (first.txid = second.txid)
  assertion (first.txid = third.txid)
  let next ← safeAdd32 first.vout 1
  assertion (second.vout = next)
  let last ← safeAdd32 first.vout 2
  assertion (third.vout = last)

/-! ## Input groups -/

def ensureDormantCoordinatorGroup (yesIndex noIndex : ℕ) : Simplicity Unit := do
  ensureInputScript crypto env noIndex (env.scriptForSlot 1)
  ensureSamePreviousTransaction2 env yesIndex noIndex

def ensureDormantFollowerGroup (yesIndex noIndex : ℕ) : Simplicity Unit := do
  ensureInputScript crypto env yesIndex (env.scriptForSlot 0)
  ensureSamePreviousTransaction2 env yesIndex noIndex

def ensureUnresolvedCoordinatorGroup (yesIndex noIndex collateralIndex : ℕ) : Simplicity Unit := do
  ensureInputScript crypto env noIndex (env.scriptForSlot 3)
  ensureInputScript crypto env collateralIndex (env.scriptForSlot 4)
  ensureSamePreviousTransaction3 env yesIndex noIndex collateralIndex

def ensureUnresolvedNoFollowerGroup (yesIndex noIndex collateralIndex : ℕ) : Simplicity Unit := do
  ensureInputScript crypto env yesIndex (env.scriptForSlot 2)
  ensureInputScript crypto env collateralIndex (env.scriptForSlot 4)
  ensureSamePreviousTransaction3 env yesIndex noIndex collateralIndex

def ensureUnresolvedCollateralFollowerGroup
    (yesIndex noIndex collateralIndex : ℕ) : Simplicity Unit := do
  ensureInputScript crypto env yesIndex (env.scriptForSlot 2)
  ensureInputScript crypto env noIndex (env.scriptForSlot 3)
  ensureSamePreviousTransaction3 env yesIndex noIndex collateralIndex

def dormantNoFollower : Simplicity Unit := do
  let noIn := env.currentIndex
  let yesIn ← safeSubtract32 noIn 1
  ensureDormantFollowerGroup crypto env yesIn noIn

def unresolvedNoFollower : Simplicity Unit := do
  let noIn := env.currentIndex
  let yesIn ← safeSubtract32 noIn 1
  let collateralIn ← safeAdd32 yesIn 2
  ensureUnresolvedNoFollowerGroup crypto env yesIn noIn collateralIn

def unresolvedCollateralFollower : Simplicity Unit := do
  let collateralIn := env.currentIndex
  let yesIn ← safeSubtract32 collateralIn 2
  let noIn ← safeAdd32 yesIn 1
  ensureUnresolvedCollateralFollowerGroup crypto env yesIn noIn collateralIn

/-! ## Reissuance tokens -/

def confidentialAmounts (amounts : Option (Asset1 × Amount1)) :
    Simplicity (CompressedCommitment × CompressedCommitment) := do
  let (asset, amount) ← unwrap amounts
  let assetCommitment ← unwrapLeft asset
  let valueCommitment ← unwrapLeft amount
  return (assetCommitment, valueCommitment)

def getInputConfidential (index : ℕ) : Simplicity (CompressedCommitment × CompressedCommitment) :=
  confidentialAmounts (inputAmount env index)

def getOutputConfidential (index : ℕ) : Simplicity (CompressedCommitment × CompressedCommitment) :=
  confidentialAmounts (outputAmount env index)

def ensureSameRtSide (yesIsA noIsA : Bool) : Simplicity Unit :=
  assertion (yesIsA = noIsA)

/-- Check the commitments of an input and of its successor, which must lie on
the other side, and return whether the input is on side A. -/
def verifyRtFlip (inputIndex outputIndex : ℕ) (expected : RtCommitmentArguments) :
    Simplicity Bool := do
  let (inputAsset, inputValue) ← getInputConfidential env inputIndex
  let (outputAsset, outputValue) ← getOutputConfidential env outputIndex
  assertion (inputValue = expected.value)
  assertion (outputValue = expected.value)
  if inputAsset = expected.assetA then do
    assertion (inputAsset ≠ expected.assetB)
    assertion (outputAsset = expected.assetB)
    return true
  else do
    assertion (inputAsset = expected.assetB)
    assertion (outputAsset = expected.assetA)
    return false

def ensureRtContinuation (inputIndex outputIndex : ℕ)
    (expected : RtCommitmentArguments) (outputSlot : ℕ) : Simplicity Bool := do
  let inputIsA ← verifyRtFlip env inputIndex outputIndex expected
  ensureOutputScript crypto env outputIndex (env.scriptForSlot outputSlot)
  return inputIsA

def ensureRtBurn (inputIndex outputIndex : ℕ)
    (expected : RtCommitmentArguments) : Simplicity Bool := do
  let inputIsA ← verifyRtFlip env inputIndex outputIndex expected
  ensureBurnScript crypto env outputIndex
  return inputIsA

/-! ## Transitions -/

def verifyOracle (outcomeYes : Bool) (signature : ℕ) : Simplicity Unit :=
  let params := compiled.params
  let message := crypto.oracleMessage params.yesTokenAssetId
    params.noTokenAssetId (if outcomeYes then .yes else .no)
  bip0340Verify crypto params.oraclePublicKey message signature

def initialIssuance (inputBase outputBase : ℕ) : Simplicity (List SlotOutput) := do
  let params := compiled.params
  let noIn ← safeAdd32 inputBase 1
  let noOut ← safeAdd32 outputBase 1
  let collateralOut ← safeAdd32 outputBase 2
  ensureCurrentIndex env inputBase
  let yesIsA ← ensureRtContinuation crypto env inputBase outputBase compiled.yesRt 2
  let noIsA ← ensureRtContinuation crypto env noIn noOut compiled.noRt 3
  ensureSameRtSide yesIsA noIsA
  let yesPairs ← ensureReissuance crypto env inputBase params.yesTokenAssetId
    params.yesReissuanceTokenId yesIsA
  let noPairs ← ensureReissuance crypto env noIn params.noTokenAssetId
    params.noReissuanceTokenId noIsA
  assertion (yesPairs = noPairs)
  let collateral ← collateralForPairs compiled yesPairs
  ensureOutputExplicit env collateralOut params.collateralAssetId collateral
  ensureOutputScript crypto env collateralOut (env.scriptForSlot 4)
  return [(outputBase, 2), (noOut, 3), (collateralOut, 4)]

def subsequentIssuance (inputBase outputBase : ℕ) : Simplicity (List SlotOutput) := do
  let params := compiled.params
  let noIn ← safeAdd32 inputBase 1
  let collateralIn ← safeAdd32 inputBase 2
  let noOut ← safeAdd32 outputBase 1
  let collateralOut ← safeAdd32 outputBase 2
  ensureCurrentIndex env inputBase
  let yesIsA ← ensureRtContinuation crypto env inputBase outputBase compiled.yesRt 2
  let noIsA ← ensureRtContinuation crypto env noIn noOut compiled.noRt 3
  ensureSameRtSide yesIsA noIsA
  let yesPairs ← ensureReissuance crypto env inputBase params.yesTokenAssetId
    params.yesReissuanceTokenId yesIsA
  let noPairs ← ensureReissuance crypto env noIn params.noTokenAssetId
    params.noReissuanceTokenId noIsA
  assertion (yesPairs = noPairs)
  let oldCollateral ← ensureInputExplicit env collateralIn params.collateralAssetId
  ensureNoIssuance crypto env collateralIn
  let added ← collateralForPairs compiled yesPairs
  let newCollateral ← safeAdd oldCollateral added
  ensureOutputExplicit env collateralOut params.collateralAssetId newCollateral
  ensureOutputScript crypto env collateralOut (env.scriptForSlot 4)
  return [(outputBase, 2), (noOut, 3), (collateralOut, 4)]

def cancellation (inputBase outputBase : ℕ) : Simplicity (List SlotOutput) := do
  let params := compiled.params
  let noIn ← safeAdd32 inputBase 1
  let collateralIn ← safeAdd32 inputBase 2
  let noOut ← safeAdd32 outputBase 1
  let thirdOut ← safeAdd32 outputBase 2
  let (thirdAsset, thirdAmount) ← getOutputExplicit env thirdOut
  let isPartial := decide (thirdAsset = params.collateralAssetId)
  let yesBurn ← if isPartial then safeAdd32 outputBase 3 else .ok thirdOut
  let noBurn ← safeAdd32 yesBurn 1
  let yesOutputSlot := if isPartial then 2 else 0
  let noOutputSlot := if isPartial then 3 else 1
  ensureNoIssuance crypto env inputBase
  ensureNoIssuance crypto env noIn
  ensureNoIssuance crypto env collateralIn
  ensureCurrentIndex env inputBase
  let pairs ← explicitBurnAmount crypto env yesBurn params.yesTokenAssetId
  let noPairs ← explicitBurnAmount crypto env noBurn params.noTokenAssetId
  assertion (pairs = noPairs)
  let yesIsA ← ensureRtContinuation crypto env inputBase outputBase compiled.yesRt yesOutputSlot
  let noIsA ← ensureRtContinuation crypto env noIn noOut compiled.noRt noOutputSlot
  ensureSameRtSide yesIsA noIsA
  let collateral ← ensureInputExplicit env collateralIn params.collateralAssetId
  let released ← collateralForPairs compiled pairs
  let remaining ← safeSubtract collateral released
  if isPartial then do
    ensureNonzero remaining
    assertion (thirdAmount = remaining)
    ensureOutputScript crypto env thirdOut (env.scriptForSlot 4)
    return [(outputBase, 2), (noOut, 3), (thirdOut, 4)]
  else do
    assertion (remaining = 0)
    return [(outputBase, 0), (noOut, 1)]

/-- The part which the two active terminal paths share: the tokens are burned
and the collateral moves to the slot of the final state. -/
def activeSettlement (inputBase outputBase : ℕ) (authorize : Simplicity Unit)
    (finalSlot : ℕ) : Simplicity (List SlotOutput) := do
  let noIn ← safeAdd32 inputBase 1
  let collateralIn ← safeAdd32 inputBase 2
  let noBurn ← safeAdd32 outputBase 1
  let collateralOut ← safeAdd32 outputBase 2
  ensureNoIssuance crypto env inputBase
  ensureNoIssuance crypto env noIn
  ensureNoIssuance crypto env collateralIn
  authorize
  ensureCurrentIndex env inputBase
  let yesIsA ← ensureRtBurn crypto env inputBase outputBase compiled.yesRt
  let noIsA ← ensureRtBurn crypto env noIn noBurn compiled.noRt
  ensureSameRtSide yesIsA noIsA
  let collateral ← ensureInputExplicit env collateralIn compiled.params.collateralAssetId
  ensureOutputExplicit env collateralOut compiled.params.collateralAssetId collateral
  ensureOutputScript crypto env collateralOut (env.scriptForSlot finalSlot)
  return [(collateralOut, finalSlot)]

def activeResolution (inputBase outputBase : ℕ) (outcomeYes : Bool)
    (signature : ℕ) : Simplicity (List SlotOutput) :=
  activeSettlement crypto compiled env inputBase outputBase
    (verifyOracle crypto compiled outcomeYes signature) (if outcomeYes then 5 else 6)

def activeExpiry (inputBase outputBase : ℕ) : Simplicity (List SlotOutput) :=
  activeSettlement crypto compiled env inputBase outputBase
    (checkLockHeight env compiled.params.expiryHeight) 7

def dormantSettlement (inputBase outputBase : ℕ) (authorize : Simplicity Unit) :
    Simplicity (List SlotOutput) := do
  let noIn ← safeAdd32 inputBase 1
  let noBurn ← safeAdd32 outputBase 1
  ensureNoIssuance crypto env inputBase
  ensureNoIssuance crypto env noIn
  authorize
  ensureCurrentIndex env inputBase
  let yesIsA ← ensureRtBurn crypto env inputBase outputBase compiled.yesRt
  let noIsA ← ensureRtBurn crypto env noIn noBurn compiled.noRt
  ensureSameRtSide yesIsA noIsA
  return []

def dormantResolution (inputBase outputBase : ℕ) (outcomeYes : Bool)
    (signature : ℕ) : Simplicity (List SlotOutput) :=
  dormantSettlement crypto compiled env inputBase outputBase
    (verifyOracle crypto compiled outcomeYes signature)

def dormantExpiry (inputBase outputBase : ℕ) : Simplicity (List SlotOutput) :=
  dormantSettlement crypto compiled env inputBase outputBase
    (checkLockHeight env compiled.params.expiryHeight)

/-- What both redemptions do once the payout per token is known: burn tokens
and pay out of the collateral, which stays in its slot unless it is used up. -/
def redemption (slot inputBase outputBase : ℕ)
    (checkSide : Bool → Simplicity Unit) (payoutFor : ℕ → Simplicity ℕ) :
    Simplicity (List SlotOutput) := do
  let params := compiled.params
  ensureCurrentIndex env inputBase
  ensureNoIssuance crypto env inputBase
  let (firstAsset, firstAmount) ← getOutputExplicit env outputBase
  let isPartial := decide (firstAsset = params.collateralAssetId)
  let burnIndex ← if isPartial then safeAdd32 outputBase 1 else .ok outputBase
  let (burnsYes, tokensBurned) ← marketTokenBurn crypto compiled env burnIndex
  checkSide burnsYes
  let collateral ← ensureInputExplicit env inputBase params.collateralAssetId
  let payout ← payoutFor tokensBurned
  let remaining ← safeSubtract collateral payout
  if isPartial then do
    ensureNonzero remaining
    assertion (firstAmount = remaining)
    ensureOutputScript crypto env outputBase (env.scriptForSlot slot)
    return [(outputBase, slot)]
  else do
    assertion (remaining = 0)
    return []

def resolvedRedemption (slot inputBase outputBase : ℕ) : Simplicity (List SlotOutput) := do
  assertion (slot = 5 ∨ slot = 6)
  redemption crypto compiled env slot inputBase outputBase
    (fun burnsYes => assertion (burnsYes = decide (slot = 5))) (collateralForPairs compiled)

def expiryRedemption (slot inputBase outputBase : ℕ) : Simplicity (List SlotOutput) := do
  assertion (slot = 7)
  redemption crypto compiled env slot inputBase outputBase (fun _ => .ok ())
    fun tokens => safeMultiply tokens compiled.params.basePayout

/-! ## The program -/

/-- The slot decides between the state refinements of an operation. -/
def coordinator (slot : ℕ) (action : BinaryMarketCoordinatorAction) :
    Simplicity (List SlotOutput) :=
  let current := env.currentIndex
  match action with
  | .issue outputBase =>
    if slot = 0 then initialIssuance crypto compiled env current outputBase
    else do
      assertion (slot = 2)
      subsequentIssuance crypto compiled env current outputBase
  | .cancel outputBase => do
      assertion (slot = 2)
      cancellation crypto compiled env current outputBase
  | .resolve outputBase resolution =>
    let outcomeYes := decide (resolution.outcome = .yes)
    if slot = 0 then
      dormantResolution crypto compiled env current outputBase outcomeYes resolution.signature
    else do
      assertion (slot = 2)
      activeResolution crypto compiled env current outputBase outcomeYes resolution.signature
  | .expire outputBase =>
    if slot = 0 then dormantExpiry crypto compiled env current outputBase
    else do
      assertion (slot = 2)
      activeExpiry crypto compiled env current outputBase
  | .redeem outputBase =>
    if slot = 5 ∨ slot = 6 then
      resolvedRedemption crypto compiled env slot current outputBase
    else do
      assertion (slot = 7)
      expiryRedemption crypto compiled env slot current outputBase

def coordinatorGroup (slot : ℕ) : Simplicity Unit :=
  let current := env.currentIndex
  if slot = 0 then do
    let noIn ← safeAdd32 current 1
    ensureDormantCoordinatorGroup crypto env current noIn
  else if slot = 2 then do
    let noIn ← safeAdd32 current 1
    let collateralIn ← safeAdd32 current 2
    ensureUnresolvedCoordinatorGroup crypto env current noIn collateralIn
  else assertion (slot = 5 ∨ slot = 6 ∨ slot = 7)

/-- Followers authenticate their group and never look at the action. -/
def main (slot : ℕ) (action : BinaryMarketCoordinatorAction) : Simplicity (List SlotOutput) := do
  ensureInputScript crypto env env.currentIndex (env.scriptForSlot slot)
  if slot = 1 then do
    dormantNoFollower crypto env
    return []
  else if slot = 3 then do
    unresolvedNoFollower crypto env
    return []
  else if slot = 4 then do
    unresolvedCollateralFollower crypto env
    return []
  else do
    coordinatorGroup crypto env slot
    coordinator crypto compiled env slot action

end

end Covenant

end DeadcatNode
