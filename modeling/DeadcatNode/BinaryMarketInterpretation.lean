import DeadcatNode.FinalizedSpend
import DeadcatNode.NodeStoreRecords

/-!
# Interpretation of binary-market spends

A confirmed transaction which spends the live outputs of a market is turned
into a state transition: the action is decoded from the witness of the head
input, and the input group, the issuances, the burns and the continuation
outputs are checked against the state before.  Curve arithmetic, hashing, the
compiler and signature verification are parameters.
-/

namespace DeadcatNode

open Checked

/-! ## Reissuance-token sides -/

inductive RtLeg where
  | yes
  | no
deriving DecidableEq

inductive RtSide where
  | a
  | b
deriving DecidableEq

def RtSide.flip : RtSide → RtSide
  | .a => .b
  | .b => .a

@[simp] theorem RtSide.flip_flip (side : RtSide) : side.flip.flip = side := by
  cases side <;> rfl

structure RtFactors where
  abf : ℕ
  vbf : ℕ
  cbf : ℕ
deriving DecidableEq

def secp256k1Order : ℕ :=
  0xfffffffffffffffffffffffffffffffebaaedce6af48a03bbfd25e8cd0364141

def repeatedByte (byte : ℕ) : ℕ := byte * ((2 ^ 256 - 1) / 255)

def RtSide.abf : RtSide → ℕ
  | .a => repeatedByte 1
  | .b => repeatedByte 2

def yesCbf : ℕ := repeatedByte 3

def reduceScalar (value : ℕ) : ℕ :=
  if value < secp256k1Order then value else value - secp256k1Order

def subtractModOrder (left right : ℕ) : ℕ :=
  if reduceScalar right ≤ reduceScalar left then
    reduceScalar left - reduceScalar right
  else secp256k1Order - (reduceScalar right - reduceScalar left)

def noCbf : ℕ := subtractModOrder 0 yesCbf

def RtLeg.cbf : RtLeg → ℕ
  | .yes => yesCbf
  | .no => noCbf

def rtFactors (leg : RtLeg) (side : RtSide) : RtFactors where
  abf := side.abf
  vbf := subtractModOrder leg.cbf side.abf
  cbf := leg.cbf

abbrev RtCommitments : Type := Confidential.Asset × Confidential.Value

/-- What the interpreter takes from its libraries: asset and value commitments,
the derivation of issued assets, key and signature checks, hashes and the
compiler's output. -/
structure MarketCrypto extends Hashing where
  commitments : AssetId → RtFactors → Option RtCommitments
  generateAssetEntropy : OutPoint → ℕ → ℕ
  assetFromEntropy : ℕ → AssetId
  reissuanceTokenFromEntropy : ℕ → Bool → AssetId
  validPublicKey : ℕ → Bool
  oracleMessage : AssetId → AssetId → BinaryOutcome → ℕ
  verifySchnorr : ℕ → ℕ → ℕ → Bool
  compiledCmr : BinaryMarketParams → Bytes
  slotScript : BinaryMarketParams → BinaryMarketSlot → Script
  controlBlock : BinaryMarketParams → BinaryMarketSlot → Bytes

def Confidential.Value.isConfidential : Confidential.Value → Bool
  | .confidential _ _ => true
  | _ => false

/-- The asset and the reissuance token an issuance refers to.  A zero nonce
marks a new issuance, whose entropy comes from the spent outpoint. -/
def MarketCrypto.issuanceIds (crypto : MarketCrypto) (input : TxIn) : AssetId × AssetId :=
  let issuance := input.assetIssuance
  let entropy :=
    if issuance.assetBlindingNonce = 0 then
      crypto.generateAssetEntropy input.previousOutput issuance.assetEntropy
    else issuance.assetEntropy
  (crypto.assetFromEntropy entropy,
    crypto.reissuanceTokenFromEntropy entropy issuance.amount.isConfidential)

/-! ## Compilation -/

inductive CompiledBinaryMarketError where
  | invalidBasePayout (basePayout : ℕ)
  | invalidExpiryHeight (expiryHeight : ℕ)
  | invalidOraclePublicKey
  | duplicateAssetIds
  | rtCommitment
  | explicitRtCommitment
  | inconsistentRtValueCommitment
deriving DecidableEq

def validateParams (crypto : MarketCrypto) (params : BinaryMarketParams) :
    Except CompiledBinaryMarketError Unit := do
  match BinaryMarketEconomics.new params.basePayout with
  | .ok _ => pure ()
  | .error _ => .error (.invalidBasePayout params.basePayout)
  require (1 ≤ params.expiryHeight ∧ params.expiryHeight < 500000000)
    (.invalidExpiryHeight params.expiryHeight)
  require (crypto.validPublicKey params.oraclePublicKey = true) .invalidOraclePublicKey
  require [params.collateralAssetId, params.yesTokenAssetId,
    params.noTokenAssetId, params.yesReissuanceTokenId,
    params.noReissuanceTokenId].Nodup .duplicateAssetIds

/-- A commitment as the covenant compares it: one parity bit and the
coordinate. -/
structure CompressedCommitment where
  parity : Bool
  x : ℕ
deriving DecidableEq

structure RtCommitmentArguments where
  assetA : CompressedCommitment
  assetB : CompressedCommitment
  value : CompressedCommitment
deriving DecidableEq

def compressAsset : Confidential.Asset → Except CompiledBinaryMarketError CompressedCommitment
  | .confidential odd x => .ok ⟨odd, x⟩
  | _ => .error .explicitRtCommitment

def compressValue : Confidential.Value → Except CompiledBinaryMarketError CompressedCommitment
  | .confidential odd x => .ok ⟨odd, x⟩
  | _ => .error .explicitRtCommitment

def rtCommitmentArguments (crypto : MarketCrypto) (assetId : AssetId)
    (leg : RtLeg) : Except CompiledBinaryMarketError RtCommitmentArguments := do
  let (assetA, valueA) ← okOr (crypto.commitments assetId (rtFactors leg .a)) .rtCommitment
  let (assetB, valueB) ← okOr (crypto.commitments assetId (rtFactors leg .b)) .rtCommitment
  let assetA ← compressAsset assetA
  let assetB ← compressAsset assetB
  let valueA ← compressValue valueA
  let valueB ← compressValue valueB
  require (valueA = valueB) .inconsistentRtValueCommitment
  return ⟨assetA, assetB, valueA⟩

/-- A compiled market: its parameters and the commitments which were passed to
the covenant program. -/
structure CompiledBinaryMarket where
  params : BinaryMarketParams
  yesRt : RtCommitmentArguments
  noRt : RtCommitmentArguments
deriving DecidableEq

def CompiledBinaryMarket.new (crypto : MarketCrypto) (params : BinaryMarketParams) :
    Except CompiledBinaryMarketError CompiledBinaryMarket := do
  validateParams crypto params
  let yesRt ← rtCommitmentArguments crypto params.yesReissuanceTokenId .yes
  let noRt ← rtCommitmentArguments crypto params.noReissuanceTokenId .no
  return ⟨params, yesRt, noRt⟩

/-! ## Errors and results -/

inductive InterpretError where
  | notCovenantSpend
  | invalidTrackedOutput (reason : String)
  | unexpectedKeySpend
  | finalizedSpend (error : FinalizedSimplicitySpendError)
  | cmrMismatch
  | missingWitness (name : String)
  | inconsistent (reason : String)
  | binaryEconomics (error : BinaryMarketError)
  | binaryLayout (error : BinaryMarketLayoutError)
  | binaryCompilation (error : CompiledBinaryMarketError)
  | indexOverflow
deriving DecidableEq

structure TrackedContractOutput where
  outpoint : OutPoint
  txout : TxOut
deriving DecidableEq

structure BinaryMarketLiveOutputs where
  yesRt : Option TrackedContractOutput := none
  noRt : Option TrackedContractOutput := none
  collateral : Option TrackedContractOutput := none
deriving DecidableEq

structure BinaryMarketContinuation where
  slot : BinaryMarketSlot
  output : TrackedContractOutput
deriving DecidableEq

structure BinaryMarketInterpretation where
  path : BinaryMarketPath
  action : BinaryMarketAction
  before : BinaryMarketState
  after : BinaryMarketState
  transition : BinaryMarketTransition
  inputBase : ℕ
  outputBase : ℕ
  spentOutpoints : List OutPoint
  continuations : List BinaryMarketContinuation
deriving DecidableEq

structure BinaryMarketRtSides where
  yes : Option RtSide := none
  no : Option RtSide := none
deriving DecidableEq

def liftEconomics {α : Type} (result : Except BinaryMarketError α) :
    Except InterpretError α := result.mapError .binaryEconomics

def liftLayout {α : Type} (result : Except BinaryMarketLayoutError α) :
    Except InterpretError α := result.mapError .binaryLayout

/-! ## Reading the transaction -/

def addIndex (index offset : ℕ) : Except InterpretError ℕ :=
  okOr (checkedAdd 32 index offset) .indexOverflow

def locateInput (transaction : Transaction) (outpoint : OutPoint) : Except InterpretError ℕ :=
  match (transaction.input.zipIdx.filter
    fun entry => entry.1.previousOutput = outpoint).map Prod.snd with
  | [] => .error .notCovenantSpend
  | [index] => .ok index
  | _ => .error (.inconsistent "tracked outpoint appears more than once")

def outputAt (transaction : Transaction) (index : ℕ) : Except InterpretError TxOut :=
  okOr transaction.output[index]? (.inconsistent "output index out of bounds")

def explicitAssetValue (output : TxOut) : Option (AssetId × ℕ) :=
  match output.asset, output.value with
  | .explicit asset, .explicit value => some (asset, value)
  | _, _ => none

def burnScript : Script := [0x6a]

def tokenBurnAmount (transaction : Transaction) (index : ℕ) (asset : AssetId) :
    Except InterpretError ℕ := do
  let output ← outputAt transaction index
  let (actual, amount) ← okOr (explicitAssetValue output) (.inconsistent "token burn not explicit")
  require (¬(actual ≠ asset ∨ amount = 0 ∨ output.scriptPubkey ≠ burnScript))
    (.inconsistent "token burn")
  return amount

def checkTokenBurn (transaction : Transaction) (index : ℕ) (asset : AssetId)
    (amount : ℕ) : Except InterpretError Unit := do
  let actual ← tokenBurnAmount transaction index asset
  require (actual = amount) (.inconsistent "token burn amount")

def checkInput (transaction : Transaction) (index : ℕ) (expected : OutPoint) :
    Except InterpretError Unit :=
  require ((transaction.input[index]?).map TxIn.previousOutput = some expected)
    (.inconsistent "input window")

def checkExpiryLock (transaction : Transaction) (expiry : ℕ) : Except InterpretError Unit :=
  require (¬(¬transaction.lockTime < 500000000 ∨ transaction.lockTime < expiry ∨
      ¬transaction.input.any fun input => input.sequence ≠ 0xffffffff))
    (.inconsistent "expiry locktime")

def issuanceAmount (crypto : MarketCrypto) (transaction : Transaction)
    (index : ℕ) (expectedAsset expectedRt : AssetId) (expectedNonce : ℕ) :
    Except InterpretError ℕ := do
  let input ← okOr transaction.input[index]? (.inconsistent "issuance input index")
  require (¬(¬input.hasIssuance = true ∨ crypto.issuanceIds input ≠ (expectedAsset, expectedRt) ∨
      input.assetIssuance.inflationKeys ≠ .null ∨
      input.assetIssuance.assetBlindingNonce ≠ expectedNonce)) (.inconsistent "issuance identity")
  match input.assetIssuance.amount with
  | .explicit amount => return amount
  | _ => .error (.inconsistent "issuance amount is not explicit")

/-! ## Live outputs -/

def checkLiveSlot (crypto : MarketCrypto) (compiled : CompiledBinaryMarket)
    (output : Option TrackedContractOutput) (slot : BinaryMarketSlot) :
    Except InterpretError Unit := do
  let output ← okOr output (.invalidTrackedOutput "missing slot output")
  require (output.txout.scriptPubkey = crypto.slotScript compiled.params slot)
    (.invalidTrackedOutput "slot script mismatch")

def checkExplicitLive (output : Option TrackedContractOutput) (asset : AssetId)
    (amount : ℕ) : Except InterpretError Unit := do
  let output ← okOr output (.invalidTrackedOutput "missing explicit output")
  require (explicitAssetValue output.txout = some (asset, amount))
    (.invalidTrackedOutput "explicit asset/value mismatch")

def Confidential.Asset.isConfidential : Confidential.Asset → Bool
  | .confidential _ _ => true
  | _ => false

def checkConfidentialRt (output : Option TrackedContractOutput) : Except InterpretError Unit := do
  let output ← okOr output (.invalidTrackedOutput "missing RT output")
  require (output.txout.asset.isConfidential = true ∧ output.txout.value.isConfidential = true)
    (.invalidTrackedOutput "RT output is not confidential")

/-- A settled market tracks its collateral alone. -/
def checkTerminalLive (crypto : MarketCrypto) (compiled : CompiledBinaryMarket)
    (live : BinaryMarketLiveOutputs) (reason : String)
    (slot : BinaryMarketSlot) (collateralUnredeemed : ℕ) : Except InterpretError Unit := do
  require (¬(live.yesRt.isSome = true ∨ live.noRt.isSome = true)) (.invalidTrackedOutput reason)
  checkLiveSlot crypto compiled live.collateral slot
  checkExplicitLive live.collateral compiled.params.collateralAssetId collateralUnredeemed

def validateLiveOutputs (crypto : MarketCrypto)
    (compiled : CompiledBinaryMarket) (state : BinaryMarketState)
    (live : BinaryMarketLiveOutputs) : Except InterpretError Unit := do
  let economics ← liftEconomics (BinaryMarketEconomics.new compiled.params.basePayout)
  liftEconomics (economics.validateState state)
  match state with
  | .trading 0 => do
      checkLiveSlot crypto compiled live.yesRt .dormantYesRt
      checkLiveSlot crypto compiled live.noRt .dormantNoRt
      checkConfidentialRt live.yesRt
      checkConfidentialRt live.noRt
      require (live.collateral = none) (.invalidTrackedOutput "dormant market has collateral")
  | .trading outstandingPairs => do
      checkLiveSlot crypto compiled live.yesRt .unresolvedYesRt
      checkLiveSlot crypto compiled live.noRt .unresolvedNoRt
      checkConfidentialRt live.yesRt
      checkConfidentialRt live.noRt
      checkLiveSlot crypto compiled live.collateral .unresolvedCollateral
      let expected ← liftEconomics (economics.collateralForPairs outstandingPairs)
      checkExplicitLive live.collateral compiled.params.collateralAssetId expected
  | .resolvedYes collateralUnredeemed =>
    checkTerminalLive crypto compiled live "resolved market still tracks RTs"
      .resolvedYesCollateral collateralUnredeemed
  | .resolvedNo collateralUnredeemed =>
    checkTerminalLive crypto compiled live "resolved market still tracks RTs"
      .resolvedNoCollateral collateralUnredeemed
  | .expired collateralUnredeemed =>
    checkTerminalLive crypto compiled live "expired market still tracks RTs"
      .expiredCollateral collateralUnredeemed

/-- The side of a reissuance token, read off its commitments alone. -/
def inferSide (crypto : MarketCrypto) (leg : RtLeg) (assetId : AssetId)
    (actual : RtCommitments) : Option RtSide := do
  let a ← crypto.commitments assetId (rtFactors leg .a)
  let b ← crypto.commitments assetId (rtFactors leg .b)
  match decide (actual = a), decide (actual = b) with
  | true, false => some .a
  | false, true => some .b
  | _, _ => none

def inferLiveRtSides (crypto : MarketCrypto) (params : BinaryMarketParams)
    (state : BinaryMarketState) (live : BinaryMarketLiveOutputs) :
    Except InterpretError BinaryMarketRtSides :=
  match state with
  | .trading _ => do
      let yes ← okOr live.yesRt (.invalidTrackedOutput "missing YES RT")
      let no ← okOr live.noRt (.invalidTrackedOutput "missing NO RT")
      let yesSide ← okOr (inferSide crypto .yes params.yesReissuanceTokenId
          (yes.txout.asset, yes.txout.value))
        (.invalidTrackedOutput "YES RT commitment is not a recognized A/B side")
      let noSide ← okOr (inferSide crypto .no params.noReissuanceTokenId
          (no.txout.asset, no.txout.value))
        (.invalidTrackedOutput "NO RT commitment is not a recognized A/B side")
      require (yesSide = noSide) (.invalidTrackedOutput "YES and NO RT sides disagree")
      return { yes := some yesSide, no := some noSide }
  | _ => .ok {}

end DeadcatNode
