import DeadcatNode.BinaryMarketInterpretation
import DeadcatNode.KeyEncoding

/-!
# Recovery hints and creation of markets

A market announces itself by a recovery hint, a zero-value return output whose
payload gives the parameters which cannot be derived from the transaction.  A
hint only nominates a candidate: the market is recompiled from its parameters
and its two dormant reissuance tokens must stand in the creation transaction.
-/

namespace DeadcatNode

open Checked

/-! ## Payloads -/

inductive RecoveryError where
  | unknownTag (tag : UInt8)
  | invalidLength (expected : String) (actual : ℕ)
  | invalidBasePayout
  | reservedCollateralIndex (index : ℕ)
  | collateralLengthMismatch (index : ℕ)
  | invalidExpiryHeight (height : ℕ)
  | invalidPayloadLength (length : ℕ)
  | invalidRecoveryScript
  | invalidRecoveryOutput
deriving DecidableEq

def marketV1Tag : UInt8 := 0x10

def marketKnownPayloadLen : ℕ := 38

def marketExoticPayloadLen : ℕ := 70

def maxRecoveryPayloadLen : ℕ := marketExoticPayloadLen

def recoveryScript (payload : Bytes) : Except RecoveryError Script := do
  require (¬(payload = [] ∨ maxRecoveryPayloadLen < payload.length))
    (.invalidPayloadLength payload.length)
  return 0x6a :: UInt8.ofNat payload.length :: payload

def parseRecoveryScript (script : Script) : Except RecoveryError Bytes :=
  match script with
  | opcode :: payloadLen :: payload => do
      require (payload ≠ [] ∧ opcode = 0x6a) .invalidRecoveryScript
      require (¬(payloadLen.toNat = 0 ∨ maxRecoveryPayloadLen < payloadLen.toNat ∨
        payload.length ≠ payloadLen.toNat)) .invalidRecoveryScript
      return payload
  | _ => .error .invalidRecoveryScript

def recoveryTxout (policyAsset : AssetId) (payload : Bytes) : Except RecoveryError TxOut := do
  let scriptPubkey ← recoveryScript payload
  return {
    asset := .explicit policyAsset
    value := .explicit 0
    nonce := .null
    scriptPubkey
    witness := {} }

def validateRecoveryTxout (txout : TxOut) (policyAsset : AssetId) : Except RecoveryError Bytes := do
  require (¬(txout.asset ≠ .explicit policyAsset ∨ txout.value ≠ .explicit 0 ∨
    txout.nonce ≠ .null ∨ txout.witness ≠ {})) .invalidRecoveryOutput
  parseRecoveryScript txout.scriptPubkey

inductive MarketCollateral where
  | policyAsset
  | liquidMainnetUsdt
  | asset (assetId : AssetId)
deriving DecidableEq

structure MarketRecoveryHint where
  oraclePublicKey : ℕ
  collateral : MarketCollateral
  basePayout : ℕ
  expiryHeight : ℕ
deriving DecidableEq

def validateExpiryHeight (height : ℕ) : Except RecoveryError Unit :=
  require (¬(height = 0 ∨ 500000000 ≤ height)) (.invalidExpiryHeight height)

def decodeCollateral (index : ℕ) (payload : Bytes) : Except RecoveryError MarketCollateral :=
  if index = 0 ∧ payload.length = marketKnownPayloadLen then .ok .policyAsset
  else if index = 1 ∧ payload.length = marketKnownPayloadLen then
    .ok .liquidMainnetUsdt
  else if index = 15 ∧ payload.length = marketExoticPayloadLen then
    .ok (.asset (KeyEncoding.value (payload.extract 38 70)))
  else if 2 ≤ index ∧ index ≤ 14 then .error (.reservedCollateralIndex index)
  else .error (.collateralLengthMismatch index)

def MarketRecoveryHint.decode (payload : Bytes) : Except RecoveryError MarketRecoveryHint := do
  require (¬(payload.length ≠ marketKnownPayloadLen ∧ payload.length ≠ marketExoticPayloadLen))
    (.invalidLength "38 or 70" payload.length)
  require (payload.getD 0 0 = marketV1Tag) (.unknownTag (payload.getD 0 0))
  -- one byte holds both indexes, four bits each
  let indexes := (payload.getD 33 0).toNat
  let expiryHeight := KeyEncoding.value (payload.extract 34 38)
  validateExpiryHeight expiryHeight
  let collateral ← decodeCollateral (indexes / 16) payload
  return {
    oraclePublicKey := KeyEncoding.value (payload.extract 1 33)
    collateral
    basePayout := basePayouts.getD (indexes % 16) 0
    expiryHeight }

/-! ## Scanning a transaction -/

structure RecoveryHintCandidate where
  location : RecoveryHintLocation
  creationTxid : Txid
  family : RecoveryFamily
  payload : Bytes
deriving DecidableEq

inductive HintRejection where
  | recovery (error : RecoveryError)
  | usdtOnAnotherNetwork
deriving DecidableEq

structure RejectedRecoveryHint where
  outputIndex : ℕ
  reason : HintRejection
deriving DecidableEq

structure HintScanResult where
  candidates : List RecoveryHintCandidate := []
  rejected : List RejectedRecoveryHint := []
deriving DecidableEq

def recognizedFamily (payload : Bytes) : Option RecoveryFamily :=
  if payload.head? = some marketV1Tag then some .binaryMarketV1 else none

def validateHint (output : TxOut) (payload : Bytes) (network : LiquidNetwork)
    (policyAsset : AssetId) : Except HintRejection Unit := do
  let _ ← (validateRecoveryTxout output policyAsset).mapError .recovery
  let hint ← (MarketRecoveryHint.decode payload).mapError .recovery
  require (¬(hint.collateral = .liquidMainnetUsdt ∧ network ≠ .liquid)) .usdtOnAnotherNetwork

def scanOutput (txid : Txid) (position : ChainPosition)
    (network : LiquidNetwork) (policyAsset : AssetId)
    (scan : HintScanResult) (entry : TxOut × ℕ) : HintScanResult :=
  match parseRecoveryScript entry.1.scriptPubkey with
  | .error _ => scan
  | .ok payload =>
    match recognizedFamily payload with
    | none => scan
    | some family =>
      match validateHint entry.1 payload network policyAsset with
      | .ok _ => { scan with
          candidates := scan.candidates ++ [⟨⟨position, entry.2⟩, txid, family, payload⟩] }
      | .error reason => { scan with
          rejected := scan.rejected ++ [⟨entry.2, reason⟩] }

/-- A recognized hint which fails its checks is reported, not fatal. -/
def scanTransactionHints (crypto : MarketCrypto) (transaction : Transaction)
    (position : ChainPosition) (network : LiquidNetwork) (policyAsset : AssetId) : HintScanResult :=
  transaction.output.zipIdx.foldl
    (scanOutput (crypto.txid transaction) position network policyAsset) {}

/-! ## Verification of a creation -/

inductive RegistrationError where
  | compilation (error : CompiledBinaryMarketError)
  | invalidCreation (reason : String)
deriving DecidableEq

structure VerifiedRegistration where
  record : ContractRecord
  creationBlockAnchor : ChainAnchor
  creationTransaction : Transaction
  associatedHint : Option RecoveryHintLocation
deriving DecidableEq

/-- The built-in asset, as the number of its internal bytes. -/
def liquidMainnetUsdt : AssetId :=
  0xd27ba36598fa8f2502aefffc9c3d76f16037ba1323631ab78bc7838b991c09ce

def resolveCollateral (collateral : MarketCollateral) (network : LiquidNetwork)
    (policyAsset : AssetId) : Except RegistrationError AssetId :=
  match collateral with
  | .policyAsset => .ok policyAsset
  | .asset assetId => .ok assetId
  | .liquidMainnetUsdt =>
    if network = .liquid then .ok liquidMainnetUsdt
    else .error (.invalidCreation "Liquid-mainnet USDt hint used on another network")

def marketHintMatches (hint : MarketRecoveryHint) (params : BinaryMarketParams)
    (network : LiquidNetwork) (policyAsset : AssetId) : Bool :=
  hint.oraclePublicKey = params.oraclePublicKey &&
    hint.basePayout = params.basePayout && hint.expiryHeight = params.expiryHeight &&
    match resolveCollateral hint.collateral network policyAsset with
    | .ok assetId => decide (assetId = params.collateralAssetId)
    | .error _ => false

def marketHint (policyAsset : AssetId) (entry : TxOut × ℕ) : Option (ℕ × MarketRecoveryHint) :=
  match validateRecoveryTxout entry.1 policyAsset with
  | .error _ => none
  | .ok payload =>
    if payload.head? = some marketV1Tag then
      match MarketRecoveryHint.decode payload with
      | .ok hint => some (entry.2, hint)
      | .error _ => none
    else none

def marketHints (transaction : Transaction) (policyAsset : AssetId) :
    List (ℕ × MarketRecoveryHint) :=
  transaction.output.zipIdx.filterMap (marketHint policyAsset)

def isCanonicalNewIssuance (input : TxIn) : Bool :=
  input.hasIssuance && input.assetIssuance.assetBlindingNonce = 0 &&
    input.assetIssuance.assetEntropy = 0 &&
    input.assetIssuance.amount = .null && input.assetIssuance.inflationKeys = .explicit 1

def uniqueDefiningInput (crypto : MarketCrypto) (transaction : Transaction)
    (expectedAsset expectedRt : AssetId) : Except RegistrationError ℕ :=
  let indexes := (transaction.input.zipIdx.filter fun entry =>
    isCanonicalNewIssuance entry.1 &&
      crypto.issuanceIds entry.1 = (expectedAsset, expectedRt)).map Prod.snd
  let found := indexes.length
  match indexes with
  | [index] => .ok index
  | _ => .error (.invalidCreation
      s!"expected one defining issuance for {expectedAsset}, found {found}")

def uniqueMarketOutput (transaction : Transaction) (expectedScript : Script)
    (expectedCommitments : RtCommitments) : Except RegistrationError ℕ :=
  let indexes := (transaction.output.zipIdx.filter fun entry =>
    entry.1.scriptPubkey = expectedScript &&
      entry.1.asset = expectedCommitments.1 && entry.1.value = expectedCommitments.2).map Prod.snd
  let found := indexes.length
  match indexes with
  | [index] => do
      require (index < 2 ^ 32) (.invalidCreation "output index exceeds u32")
      return index
  | _ => .error (.invalidCreation s!"expected one deterministic dormant RT output, found {found}")

structure IssuanceAssets where
  yesToken : AssetId
  noToken : AssetId
  yesReissuanceToken : AssetId
  noReissuanceToken : AssetId
deriving DecidableEq

/-- The assets of a bootstrap with zero contract hashes and unblinded
issuances. -/
def deriveIssuanceAssets (crypto : MarketCrypto)
    (yesDefiningOutpoint noDefiningOutpoint : OutPoint) : IssuanceAssets where
  yesToken := crypto.assetFromEntropy (crypto.generateAssetEntropy yesDefiningOutpoint 0)
  noToken := crypto.assetFromEntropy (crypto.generateAssetEntropy noDefiningOutpoint 0)
  yesReissuanceToken := crypto.reissuanceTokenFromEntropy
    (crypto.generateAssetEntropy yesDefiningOutpoint 0) false
  noReissuanceToken := crypto.reissuanceTokenFromEntropy
    (crypto.generateAssetEntropy noDefiningOutpoint 0) false

def checkSuppliedParams (crypto : MarketCrypto) (transaction : Transaction)
    (params : BinaryMarketParams) : Except RegistrationError Unit := do
  let yesInput ← uniqueDefiningInput crypto transaction params.yesTokenAssetId
    params.yesReissuanceTokenId
  let noInput ← uniqueDefiningInput crypto transaction params.noTokenAssetId
    params.noReissuanceTokenId
  require (yesInput ≠ noInput) (.invalidCreation "YES and NO resolve to the same defining issuance")

def standaloneParams (crypto : MarketCrypto) (transaction : Transaction)
    (hints : List (ℕ × MarketRecoveryHint)) (network : LiquidNetwork)
    (policyAsset : AssetId) : Except RegistrationError BinaryMarketParams := do
  let hint ← match hints with
    | [(_, hint)] => .ok hint
    | _ => .error (.invalidCreation
        "automatic market recovery requires exactly one canonical market hint")
  match transaction.input with
  | yesInput :: noInput :: others => do
      require (2 ≤ transaction.output.length) (.invalidCreation
        "standalone market creation is missing its fixed inputs or outputs")
      require (isCanonicalNewIssuance yesInput = true ∧ isCanonicalNewIssuance noInput = true ∧
        others.any TxIn.hasIssuance = false)
        (.invalidCreation "standalone market issuance shape is not canonical")
      let assets := deriveIssuanceAssets crypto yesInput.previousOutput noInput.previousOutput
      let collateralAssetId ← resolveCollateral hint.collateral network policyAsset
      return {
        oraclePublicKey := hint.oraclePublicKey
        collateralAssetId
        yesTokenAssetId := assets.yesToken
        noTokenAssetId := assets.noToken
        yesReissuanceTokenId := assets.yesReissuanceToken
        noReissuanceTokenId := assets.noReissuanceToken
        basePayout := hint.basePayout
        expiryHeight := hint.expiryHeight }
  | _ => .error (.invalidCreation
      "standalone market creation is missing its fixed inputs or outputs")

def marketAssets (params : BinaryMarketParams) : List AssetBinding :=
  [⟨params.collateralAssetId, .collateral, BinaryMarketSlot.unresolvedCollateral.tag⟩,
    ⟨params.yesTokenAssetId, .yesToken, 0⟩,
    ⟨params.noTokenAssetId, .noToken, 1⟩,
    ⟨params.yesReissuanceTokenId, .yesReissuanceToken, BinaryMarketSlot.dormantYesRt.tag⟩,
    ⟨params.noReissuanceTokenId, .noReissuanceToken, BinaryMarketSlot.dormantNoRt.tag⟩]

def createdMarket (crypto : MarketCrypto) (params : BinaryMarketParams)
    (contractId : ContractId) (position : ChainPosition) (anchor : ChainAnchor)
    (yesOutpoint noOutpoint : OutPoint) : ContractRecord where
  contractId
  kind := .binaryMarketV1
  params
  creationPosition := position
  state := .trading 0
  syncState := .catchingUp anchor
  scripts := BinaryMarketSlot.all.map fun slot => ⟨slot.tag, crypto.slotScript params slot⟩
  assets := marketAssets params
  outpoints := [⟨BinaryMarketSlot.dormantYesRt.tag, yesOutpoint⟩,
    ⟨BinaryMarketSlot.dormantNoRt.tag, noOutpoint⟩]

def creationParams (crypto : MarketCrypto) (transaction : Transaction)
    (hints : List (ℕ × MarketRecoveryHint)) (network : LiquidNetwork)
    (policyAsset : AssetId) (suppliedParams : Option BinaryMarketParams) :
    Except RegistrationError BinaryMarketParams :=
  match suppliedParams with
  | some params => do
      checkSuppliedParams crypto transaction params
      return params
  | none => standaloneParams crypto transaction hints network policyAsset

def rtCommitmentError (factors : RtFactors) : String :=
  if factors.abf < secp256k1Order then "invalid RT value blinding factor"
  else "invalid RT asset blinding factor"

/-- The canonical lineage starts with both reissuance tokens on side A. -/
def dormantOutput (crypto : MarketCrypto) (transaction : Transaction)
    (params : BinaryMarketParams) (slot : BinaryMarketSlot) (assetId : AssetId)
    (leg : RtLeg) : Except RegistrationError ℕ := do
  let commitments ← okOr (crypto.commitments assetId (rtFactors leg .a))
    (.invalidCreation (rtCommitmentError (rtFactors leg .a)))
  uniqueMarketOutput transaction (crypto.slotScript params slot) commitments

def verifyBinaryMarketCreation (crypto : MarketCrypto)
    (transaction : Transaction) (position : ChainPosition)
    (anchor : ChainAnchor) (network : LiquidNetwork) (policyAsset : AssetId)
    (suppliedParams : Option BinaryMarketParams) (expectedContractId : Option ContractId) :
    Except RegistrationError VerifiedRegistration := do
  let hints := marketHints transaction policyAsset
  let params ← creationParams crypto transaction hints network policyAsset suppliedParams
  let _ ← (CompiledBinaryMarket.new crypto params).mapError .compilation
  let yesOutput ← dormantOutput crypto transaction params .dormantYesRt
    params.yesReissuanceTokenId .yes
  let noOutput ← dormantOutput crypto transaction params .dormantNoRt params.noReissuanceTokenId .no
  require (¬(suppliedParams = none ∧ (yesOutput ≠ 0 ∨ noOutput ≠ 1)))
    (.invalidCreation "standalone market RT outputs are not at vout 0 and 1")
  let matchingHints := (hints.filter fun hint =>
    marketHintMatches hint.2 params network policyAsset).map Prod.fst
  require (¬(suppliedParams = none ∧ matchingHints.length ≠ 1))
    (.invalidCreation "standalone recovery hint does not match the derived market")
  let txid := crypto.txid transaction
  let creationAnchor : OutPoint := ⟨txid, yesOutput⟩
  require (∀ contractId ∈ expectedContractId, contractId.creationAnchor = creationAnchor)
    (.invalidCreation "market ContractId does not nominate its initial dormant YES RT output")
  return {
    record := createdMarket crypto params
      (expectedContractId.getD ⟨creationAnchor⟩) position anchor ⟨txid, yesOutput⟩ ⟨txid, noOutput⟩
    creationBlockAnchor := anchor
    creationTransaction := transaction
    associatedHint := match matchingHints with
      | [index] => some ⟨position, index⟩
      | _ => none }

end DeadcatNode
