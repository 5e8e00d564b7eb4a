import DeadcatNode.BinaryMarketInterpretation

/-!
# The spend interpreter of a binary market

From the decoded action of the head input to the interpreted transition: the
input group is matched against the live outputs, the amounts are read off
issuances and burns, the economics is applied and the outputs are compared with
what the new state calls for.
-/

namespace DeadcatNode

open Checked

/-! ## The action -/

/-- The slot and the action which were found so far. -/
abbrev MarketWitness : Type := Option ℕ × Option BinaryMarketCoordinatorAction

def MarketWitness.take (found : MarketWitness) : WitnessValue → Except InterpretError MarketWitness
  | .slot tag => do
      require (found.1 = none) (.inconsistent "duplicate SLOT witness")
      return (some tag, found.2)
  | .action action => do
      require (found.2 = none) (.inconsistent "duplicate ACTION witness")
      return (found.1, some action)
  | .other => .error (.inconsistent "unexpected binary-market witness value type")

def MarketWitness.action (expectedSlot : BinaryMarketSlot) (found : MarketWitness) :
    Except InterpretError BinaryMarketCoordinatorAction := do
  let slot ← okOr found.1 (.missingWitness "SLOT")
  require (slot = expectedSlot.tag) (.inconsistent "SLOT does not match authenticated market slot")
  okOr found.2 (.missingWitness "ACTION")

def decodeMarketWitnessValues (values : List WitnessValue) (expectedSlot : BinaryMarketSlot) :
    Except InterpretError BinaryMarketCoordinatorAction :=
  values.foldlM MarketWitness.take (none, none) >>= MarketWitness.action expectedSlot

def cancellationIsFull (params : BinaryMarketParams) (transaction : Transaction)
    (outputBase : ℕ) : Except InterpretError Bool := do
  let index ← addIndex outputBase 2
  let discriminator ← outputAt transaction index
  let (asset, _) ← okOr (explicitAssetValue discriminator)
    (.inconsistent "cancellation discriminator output not explicit")
  if asset = params.collateralAssetId then return false
  else do
    let _ ← tokenBurnAmount transaction index params.yesTokenAssetId
    return true

def redemptionBurnIndex (params : BinaryMarketParams) (transaction : Transaction)
    (outputBase : ℕ) : Except InterpretError ℕ := do
  let firstOutput ← outputAt transaction outputBase
  let (firstAsset, _) ← okOr (explicitAssetValue firstOutput)
    (.inconsistent "redemption discriminator output not explicit")
  if firstAsset = params.collateralAssetId then addIndex outputBase 1
  else .ok outputBase

def redemptionSide (params : BinaryMarketParams) (before : BinaryMarketState)
    (transaction : Transaction) (burnIndex : ℕ) : Except InterpretError Bool :=
  match before with
  | .resolvedYes _ => .ok true
  | .resolvedNo _ => .ok false
  | .expired _ => do
      let burn ← outputAt transaction burnIndex
      let (asset, _) ← okOr (explicitAssetValue burn) (.inconsistent "redemption burn not explicit")
      if asset = params.yesTokenAssetId then .ok true
      else if asset = params.noTokenAssetId then .ok false
      else .error (.inconsistent "redemption burn has unknown token asset")
  | .trading _ => .error (.inconsistent "redemption phase")

def redemptionDetails (params : BinaryMarketParams) (before : BinaryMarketState)
    (transaction : Transaction) (outputBase : ℕ) : Except InterpretError (Bool × ℕ) := do
  let burnIndex ← redemptionBurnIndex params transaction outputBase
  let outcomeYes ← redemptionSide params before transaction burnIndex
  let burnAsset :=
    if outcomeYes then params.yesTokenAssetId else params.noTokenAssetId
  let tokens ← tokenBurnAmount transaction burnIndex burnAsset
  return (outcomeYes, tokens)

def verifyOracleSignature (crypto : MarketCrypto) (params : BinaryMarketParams)
    (outcomeYes : Bool) (signature : ℕ) : Bool :=
  crypto.validPublicKey params.oraclePublicKey && crypto.verifySchnorr params.oraclePublicKey
      (crypto.oracleMessage params.yesTokenAssetId params.noTokenAssetId
        (if outcomeYes then .yes else .no)) signature

/-! ## The input group -/

def BinaryMarketLiveOutputs.forSlot (live : BinaryMarketLiveOutputs) :
    BinaryMarketSlot → Option TrackedContractOutput
  | .dormantYesRt | .unresolvedYesRt => live.yesRt
  | .dormantNoRt | .unresolvedNoRt => live.noRt
  | .unresolvedCollateral | .resolvedYesCollateral | .resolvedNoCollateral
  | .expiredCollateral => live.collateral

def inputHasIssuance (transaction : Transaction) (index : ℕ) : Bool :=
  (transaction.input[index]?).any TxIn.hasIssuance

def spendRole (live : BinaryMarketLiveOutputs) (transaction : Transaction)
    (inputBase : ℕ) (entry : BinaryMarketInputRole × ℕ) : Except InterpretError OutPoint := do
  let tracked ← okOr (live.forSlot entry.1.slot) (.invalidTrackedOutput "missing input role output")
  let index ← addIndex inputBase entry.2
  checkInput transaction index tracked.outpoint
  return tracked.outpoint

def consecutiveSiblings (yes no collateral : OutPoint) : Except InterpretError Bool := do
  if no.txid ≠ yes.txid ∨ collateral.txid ≠ yes.txid then return false
  else do
    let next ← okOr (checkedAdd 32 yes.vout 1) (.inconsistent "sibling vout overflow")
    if no.vout ≠ next then return false
    else do
      let second ← okOr (checkedAdd 32 yes.vout 2) (.inconsistent "sibling vout overflow")
      return decide (collateral.vout = second)

def verifyDormantGroup (path : BinaryMarketPath) (before : BinaryMarketState)
    (live : BinaryMarketLiveOutputs) (transaction : Transaction)
    (inputBase : ℕ) : Except InterpretError Unit := do
  require (before = .trading 0) (.inconsistent "dormant input state")
  let yes ← okOr live.yesRt (.invalidTrackedOutput "missing YES RT")
  let no ← okOr live.noRt (.invalidTrackedOutput "missing NO RT")
  require (yes.outpoint.txid = no.outpoint.txid)
    (.inconsistent "dormant siblings have different txids")
  require (¬(path ≠ .initialIssuance ∧ (inputHasIssuance transaction inputBase = true ∨
        inputHasIssuance transaction (inputBase + 1) = true)))
    (.inconsistent "issuance on dormant terminal path")

def verifyUnresolvedGroup (path : BinaryMarketPath) (before : BinaryMarketState)
    (live : BinaryMarketLiveOutputs) (transaction : Transaction)
    (inputBase : ℕ) : Except InterpretError Unit := do
  match before with
  | .trading (_ + 1) => pure ()
  | _ => .error (.inconsistent "active input state")
  let yes ← okOr live.yesRt (.invalidTrackedOutput "missing YES RT")
  let no ← okOr live.noRt (.invalidTrackedOutput "missing NO RT")
  let collateral ← okOr live.collateral (.invalidTrackedOutput "missing collateral")
  let consecutive ← consecutiveSiblings yes.outpoint no.outpoint collateral.outpoint
  require (consecutive = true) (.inconsistent "unresolved siblings are not consecutive")
  require (¬(path ≠ .subsequentIssuance ∧ (inputHasIssuance transaction inputBase = true ∨
        inputHasIssuance transaction (inputBase + 1) = true ∨
        inputHasIssuance transaction (inputBase + 2) = true)))
    (.inconsistent "issuance on non-issuance path")
  require (¬(path = .subsequentIssuance ∧ inputHasIssuance transaction (inputBase + 2) = true))
    (.inconsistent "collateral input carries issuance")

def verifyGroup (layout : BinaryMarketLayout) (before : BinaryMarketState)
    (live : BinaryMarketLiveOutputs) (transaction : Transaction)
    (inputBase : ℕ) : Except InterpretError Unit :=
  match layout.coordinator with
  | .dormantYesRt =>
    verifyDormantGroup layout.path before live transaction inputBase
  | .unresolvedYesRt =>
    verifyUnresolvedGroup layout.path before live transaction inputBase
  | .resolvedYesCollateral | .resolvedNoCollateral | .expiredCollateral =>
    require (inputHasIssuance transaction inputBase = false)
      (.inconsistent "issuance on redemption")

def verifyInputGroup (layout : BinaryMarketLayout) (before : BinaryMarketState)
    (live : BinaryMarketLiveOutputs) (transaction : Transaction)
    (inputBase : ℕ) : Except InterpretError (List OutPoint) := do
  let spent ← layout.inputRoles.zipIdx.mapM (spendRole live transaction inputBase)
  verifyGroup layout before live transaction inputBase
  return spent

/-! ## The outputs -/

def continuation (crypto : MarketCrypto) (transaction : Transaction)
    (index : ℕ) (slot : BinaryMarketSlot) (txout : TxOut) : BinaryMarketContinuation where
  slot
  output := ⟨⟨crypto.txid transaction, index⟩, txout⟩

def rtContinuation (crypto : MarketCrypto) (compiled : CompiledBinaryMarket)
    (transaction : Transaction) (index : ℕ) (slot : BinaryMarketSlot)
    (assetId : AssetId) (factors : RtFactors) : Except InterpretError BinaryMarketContinuation := do
  let txout ← outputAt transaction index
  let expected ← okOr (crypto.commitments assetId factors)
    (.inconsistent "invalid RT continuation factors")
  require (¬(txout.scriptPubkey ≠ crypto.slotScript compiled.params slot ∨
      (txout.asset, txout.value) ≠ expected)) (.inconsistent "RT continuation")
  return continuation crypto transaction index slot txout

def collateralContinuation (crypto : MarketCrypto)
    (compiled : CompiledBinaryMarket) (transaction : Transaction) (index : ℕ)
    (slot : BinaryMarketSlot) (asset : AssetId) (amount : ℕ) :
    Except InterpretError BinaryMarketContinuation := do
  let txout ← outputAt transaction index
  require (¬(txout.scriptPubkey ≠ crypto.slotScript compiled.params slot ∨
      explicitAssetValue txout ≠ some (asset, amount))) (.inconsistent "collateral continuation")
  return continuation crypto transaction index slot txout

def checkRtBurn (crypto : MarketCrypto) (transaction : Transaction)
    (index : ℕ) (assetId : AssetId) (factors : RtFactors) : Except InterpretError Unit := do
  let output ← outputAt transaction index
  let expected ← okOr (crypto.commitments assetId factors) (.inconsistent "invalid RT burn factors")
  require (¬(output.scriptPubkey ≠ burnScript ∨
      (output.asset, output.value) ≠ expected)) (.inconsistent "RT burn")

def oppositeSideFactors (leg : RtLeg) (live : Option TrackedContractOutput)
    (side : Option RtSide) : Except InterpretError (Option RtFactors) :=
  match live, side with
  | some _, some side => .ok (some (rtFactors leg side.flip))
  | none, none => .ok none
  | _, _ => .error (.invalidTrackedOutput "RT output and inferred side disagree")

def tradingCollateral (state : BinaryMarketState) (params : BinaryMarketParams) :
    Except InterpretError ℕ :=
  match state with
  | .trading outstandingPairs => do
      let economics ← liftEconomics (BinaryMarketEconomics.new params.basePayout)
      liftEconomics (economics.collateralForPairs outstandingPairs)
  | _ => .error (.inconsistent "expected trading state")

def terminalCollateral : BinaryMarketState → Option (BinaryMarketSlot × ℕ)
  | .resolvedYes collateral => some (.resolvedYesCollateral, collateral)
  | .resolvedNo collateral => some (.resolvedNoCollateral, collateral)
  | .expired collateral => some (.expiredCollateral, collateral)
  | .trading _ => none

def terminalSlotAmount (state : BinaryMarketState) : Except InterpretError (BinaryMarketSlot × ℕ) :=
  okOr (terminalCollateral state) (.inconsistent "expected terminal collateral")

def actionOutcome : BinaryMarketTransition → Except InterpretError BinaryOutcome
  | .redeemed outcome _ _ _ => .ok outcome
  | _ => .error (.inconsistent "expected redemption transition")

def rtContinuations (crypto : MarketCrypto) (compiled : CompiledBinaryMarket)
    (transaction : Transaction) (outputBase : ℕ)
    (yesSlot noSlot : BinaryMarketSlot) (yesFactors noFactors : Option RtFactors) :
    Except InterpretError (List BinaryMarketContinuation) := do
  let yesFactors ← okOr yesFactors (.invalidTrackedOutput "missing inferred YES RT side")
  let yes ← rtContinuation crypto compiled transaction outputBase yesSlot
    compiled.params.yesReissuanceTokenId yesFactors
  let noIndex ← addIndex outputBase 1
  let noFactors ← okOr noFactors (.invalidTrackedOutput "missing inferred NO RT side")
  let no ← rtContinuation crypto compiled transaction noIndex noSlot
    compiled.params.noReissuanceTokenId noFactors
  return [yes, no]

def rtBurns (crypto : MarketCrypto) (compiled : CompiledBinaryMarket)
    (transaction : Transaction) (outputBase : ℕ)
    (yesFactors noFactors : Option RtFactors) : Except InterpretError Unit := do
  let yesFactors ← okOr yesFactors (.invalidTrackedOutput "missing inferred YES RT side")
  checkRtBurn crypto transaction outputBase compiled.params.yesReissuanceTokenId yesFactors
  let noIndex ← addIndex outputBase 1
  let noFactors ← okOr noFactors (.invalidTrackedOutput "missing inferred NO RT side")
  checkRtBurn crypto transaction noIndex compiled.params.noReissuanceTokenId noFactors

def collateralAfter (crypto : MarketCrypto) (compiled : CompiledBinaryMarket)
    (transaction : Transaction) (outputBase : ℕ) (slot : BinaryMarketSlot)
    (amount : ℕ) : Except InterpretError BinaryMarketContinuation := do
  let index ← addIndex outputBase 2
  collateralContinuation crypto compiled transaction index slot
    compiled.params.collateralAssetId amount

def outcomeAsset (params : BinaryMarketParams) : BinaryOutcome → AssetId
  | .yes => params.yesTokenAssetId
  | .no => params.noTokenAssetId

def verifyRedemption (crypto : MarketCrypto) (compiled : CompiledBinaryMarket)
    (transaction : Transaction) (applied : AppliedBinaryMarketTransition) (outputBase tokens : ℕ) :
    Except InterpretError (List BinaryMarketContinuation) := do
  require (tokens ≠ 0) (.inconsistent "zero redemption")
  let outcome ← actionOutcome applied.transition
  let burnAsset := outcomeAsset compiled.params outcome
  match terminalCollateral applied.newState with
  | some (slot, remaining) =>
    if 0 < remaining then do
      let collateral ← collateralContinuation crypto compiled transaction
        outputBase slot compiled.params.collateralAssetId remaining
      let burnIndex ← addIndex outputBase 1
      checkTokenBurn transaction burnIndex burnAsset tokens
      return [collateral]
    else do
      checkTokenBurn transaction outputBase burnAsset tokens
      return []
  | none => do
      checkTokenBurn transaction outputBase burnAsset tokens
      return []

def verifyOutputs (crypto : MarketCrypto) (compiled : CompiledBinaryMarket)
    (transaction : Transaction) (layout : BinaryMarketLayout)
    (before : BinaryMarketState) (live : BinaryMarketLiveOutputs)
    (sides : BinaryMarketRtSides) (applied : AppliedBinaryMarketTransition)
    (outputBase tokens : ℕ) : Except InterpretError (List BinaryMarketContinuation) := do
  let yesFactors ← oppositeSideFactors .yes live.yesRt sides.yes
  let noFactors ← oppositeSideFactors .no live.noRt sides.no
  match layout.path with
  | .initialIssuance | .subsequentIssuance => do
      let tokens ← rtContinuations crypto compiled transaction outputBase
        .unresolvedYesRt .unresolvedNoRt yesFactors noFactors
      let amount ← tradingCollateral applied.newState compiled.params
      let collateral ← collateralAfter crypto compiled transaction outputBase
        .unresolvedCollateral amount
      return tokens ++ [collateral]
  | .partialCancellation => do
      let tokens ← rtContinuations crypto compiled transaction outputBase
        .unresolvedYesRt .unresolvedNoRt yesFactors noFactors
      let amount ← tradingCollateral applied.newState compiled.params
      require (amount ≠ 0) (.inconsistent "partial cancellation drained market")
      let collateral ← collateralAfter crypto compiled transaction outputBase
        .unresolvedCollateral amount
      return tokens ++ [collateral]
  | .fullCancellation => do
      require (applied.newState = .trading 0) (.inconsistent "full cancellation left pairs")
      rtContinuations crypto compiled transaction outputBase .dormantYesRt
        .dormantNoRt yesFactors noFactors
  | .activeResolution => do
      rtBurns crypto compiled transaction outputBase yesFactors noFactors
      let (slot, amount) ← terminalSlotAmount applied.newState
      let collateral ← collateralAfter crypto compiled transaction outputBase slot amount
      return [collateral]
  | .dormantResolution => do
      rtBurns crypto compiled transaction outputBase yesFactors noFactors
      require (before = .trading 0) (.inconsistent "dormant resolution state")
      return []
  | .activeExpiry => do
      rtBurns crypto compiled transaction outputBase yesFactors noFactors
      let (_, amount) ← terminalSlotAmount applied.newState
      let collateral ← collateralAfter crypto compiled transaction outputBase
        .expiredCollateral amount
      return [collateral]
  | .dormantExpiry => do
      rtBurns crypto compiled transaction outputBase yesFactors noFactors
      return []
  | .resolvedRedemption | .expiryRedemption =>
    verifyRedemption crypto compiled transaction applied outputBase tokens

/-! ## The transition -/

def issuedPairs (crypto : MarketCrypto) (params : BinaryMarketParams)
    (sides : BinaryMarketRtSides) (transaction : Transaction)
    (inputBase : ℕ) : Except InterpretError BinaryMarketAction := do
  let yesSide ← okOr sides.yes (.invalidTrackedOutput "missing inferred YES RT side")
  let noSide ← okOr sides.no (.invalidTrackedOutput "missing inferred NO RT side")
  let yes ← issuanceAmount crypto transaction inputBase params.yesTokenAssetId
    params.yesReissuanceTokenId (rtFactors .yes yesSide).abf
  let noIndex ← addIndex inputBase 1
  let no ← issuanceAmount crypto transaction noIndex params.noTokenAssetId
    params.noReissuanceTokenId (rtFactors .no noSide).abf
  require (¬(yes = 0 ∨ yes ≠ no)) (.inconsistent "unequal or zero issuance")
  return .issue yes

def burnedPairs (params : BinaryMarketParams) (transaction : Transaction)
    (outputBase offset : ℕ) : Except InterpretError BinaryMarketAction := do
  let yesIndex ← addIndex outputBase offset
  let pairs ← tokenBurnAmount transaction yesIndex params.yesTokenAssetId
  let noIndex ← addIndex outputBase (offset + 1)
  checkTokenBurn transaction noIndex params.noTokenAssetId pairs
  return .cancel pairs

def decodedAction (crypto : MarketCrypto) (params : BinaryMarketParams)
    (before : BinaryMarketState) (sides : BinaryMarketRtSides)
    (transaction : Transaction) (path : BinaryMarketPath)
    (inputBase outputBase : ℕ) (outcomeYes : Bool) (tokens : ℕ) :
    Except InterpretError BinaryMarketAction :=
  match path with
  | .initialIssuance | .subsequentIssuance =>
    issuedPairs crypto params sides transaction inputBase
  | .partialCancellation => burnedPairs params transaction outputBase 3
  | .fullCancellation => burnedPairs params transaction outputBase 2
  | .activeResolution | .dormantResolution =>
    return .resolve (if outcomeYes then .yes else .no)
  | .activeExpiry | .dormantExpiry => do
      checkExpiryLock transaction params.expiryHeight
      return .expire
  | .resolvedRedemption =>
    match before with
    | .resolvedYes _ => return .redeem .yes tokens
    | .resolvedNo _ => return .redeem .no tokens
    | _ => .error (.inconsistent "resolved redemption phase")
  | .expiryRedemption =>
    return .redeem (if outcomeYes then .yes else .no) tokens

def interpretDecodedAction (crypto : MarketCrypto)
    (economics : BinaryMarketEconomics) (compiled : CompiledBinaryMarket)
    (before : BinaryMarketState) (live : BinaryMarketLiveOutputs)
    (sides : BinaryMarketRtSides) (transaction : Transaction)
    (layout : BinaryMarketLayout) (inputBase outputBase : ℕ) (outcomeYes : Bool) (tokens : ℕ) :
    Except InterpretError BinaryMarketInterpretation := do
  let spent ← verifyInputGroup layout before live transaction inputBase
  let action ← decodedAction crypto compiled.params before sides transaction
    layout.path inputBase outputBase outcomeYes tokens
  let applied ← liftEconomics (economics.apply before action)
  let continuations ← verifyOutputs crypto compiled transaction layout before
    live sides applied outputBase tokens
  return {
    path := layout.path
    action
    before
    after := applied.newState
    transition := applied.transition
    inputBase
    outputBase
    spentOutpoints := spent
    continuations }

/-- A cancellation shows its shape; the other actions have none. -/
def fullCancellation (params : BinaryMarketParams) (transaction : Transaction) :
    BinaryMarketCoordinatorAction → Except InterpretError (Option Bool)
  | .cancel outputBase =>
    some <$> cancellationIsFull params transaction outputBase
  | _ => .ok none

def actionDetails (crypto : MarketCrypto) (params : BinaryMarketParams)
    (before : BinaryMarketState) (transaction : Transaction) :
    BinaryMarketCoordinatorAction → Except InterpretError (Bool × ℕ)
  | .resolve _ resolution => do
      let outcomeYes := decide (resolution.outcome = .yes)
      require (verifyOracleSignature crypto params outcomeYes
        resolution.signature = true) (.inconsistent "invalid oracle signature")
      return (outcomeYes, 0)
  | .redeem outputBase =>
    redemptionDetails params before transaction outputBase
  | _ => .ok (false, 0)

/-- What follows once the head input is located and its action decoded. -/
def interpretAction (crypto : MarketCrypto) (compiled : CompiledBinaryMarket)
    (before : BinaryMarketState) (live : BinaryMarketLiveOutputs)
    (transaction : Transaction) (inputBase : ℕ) (operation : BinaryMarketCoordinatorAction) :
    Except InterpretError BinaryMarketInterpretation := do
  let params := compiled.params
  let sides ← inferLiveRtSides crypto params before live
  let full ← fullCancellation params transaction operation
  let coordinator ← liftLayout (BinaryMarketCoordinatorRole.tryFrom
    (BinaryMarketCoordinatorRole.forState before).slot)
  let layout ← liftLayout (BinaryMarketLayout.forOperation coordinator operation.operation full)
  let (outcomeYes, tokens) ← actionDetails crypto params before transaction operation
  let economics ← liftEconomics (BinaryMarketEconomics.new params.basePayout)
  interpretDecodedAction crypto economics compiled before live sides transaction
    layout inputBase operation.outputBase outcomeYes tokens

def headOutput (before : BinaryMarketState) (live : BinaryMarketLiveOutputs) :
    Option TrackedContractOutput :=
  match before with
  | .trading _ => live.yesRt
  | .resolvedYes _ | .resolvedNo _ | .expired _ => live.collateral

/-- A stack of one item, not counting an annex, is a key-path spend. -/
def keyPathItems (stack : List Bytes) : ℕ :=
  match stack with
  | [_, annex] => if annex.head? = some taprootAnnexTag then 1 else 2
  | _ => stack.length

def interpretBinaryMarketSpendWithCompiled (crypto : MarketCrypto)
    (codec : SimplicityCodec) (compiled : CompiledBinaryMarket)
    (before : BinaryMarketState) (live : BinaryMarketLiveOutputs) (transaction : Transaction) :
    Except InterpretError BinaryMarketInterpretation := do
  validateLiveOutputs crypto compiled before live
  let head ← okOr (headOutput before live) (.invalidTrackedOutput "missing primary live output")
  let headIndex ← locateInput transaction head.outpoint
  require (headIndex < 2 ^ 32) .indexOverflow
  let stack := (transaction.input[headIndex]?).elim [] TxIn.scriptWitness
  require (keyPathItems stack ≠ 1) .unexpectedKeySpend
  let decoded ← (FinalizedSimplicitySpend.fromWitnessStack codec stack).mapError .finalizedSpend
  require (decoded.cmr = crypto.compiledCmr compiled.params) .cmrMismatch
  let expectedSlot := (BinaryMarketCoordinatorRole.forState before).slot
  require (decoded.controlBlock = crypto.controlBlock compiled.params expectedSlot)
    (.inconsistent "market control block mismatch")
  let operation ← decodeMarketWitnessValues decoded.redeemNode.values expectedSlot
  interpretAction crypto compiled before live transaction headIndex operation

def interpretBinaryMarketSpend (crypto : MarketCrypto) (codec : SimplicityCodec)
    (params : BinaryMarketParams) (before : BinaryMarketState)
    (live : BinaryMarketLiveOutputs) (transaction : Transaction) :
    Except InterpretError BinaryMarketInterpretation := do
  let compiled ← (CompiledBinaryMarket.new crypto params).mapError .binaryCompilation
  interpretBinaryMarketSpendWithCompiled crypto codec compiled before live transaction

/-! ## A market on fixed inputs -/

/-- A slot script which spells out the parameters of its market. -/
def sampleSlotScript (params : BinaryMarketParams) (slot : BinaryMarketSlot) : Script :=
  UInt8.ofNat (slot.tag + 1) ::
    [params.oraclePublicKey, params.collateralAssetId, params.yesTokenAssetId,
      params.noTokenAssetId, params.yesReissuanceTokenId,
      params.noReissuanceTokenId, params.basePayout,
      params.expiryHeight].flatMap fun n => List.replicate n 1 ++ [0]

/-- Functions without collisions on which runs can be evaluated.  A transaction
is identified by its lock time and a delta by its block. -/
def sampleCrypto : MarketCrypto where
  txid transaction := transaction.lockTime
  scriptHash script := script.foldl (fun hash byte => 257 * hash + byte.toNat + 1) 0
  digest delta := delta.anchor.hash
  commitments assetId factors :=
    some (.confidential (factors.abf = RtSide.a.abf) assetId, .confidential false assetId)
  generateAssetEntropy outpoint contractHash :=
    Nat.pair (Nat.pair outpoint.txid outpoint.vout) contractHash
  assetFromEntropy entropy := 3 * entropy + 5
  reissuanceTokenFromEntropy entropy isConfidential := 3 * entropy + if isConfidential then 4 else 3
  validPublicKey _ := true
  oracleMessage yes no outcome := match outcome with
    | .yes => yes
    | .no => no
  verifySchnorr _ message signature := message = signature
  compiledCmr _ := List.replicate 32 0
  slotScript := sampleSlotScript
  controlBlock _ slot := [0xc0, UInt8.ofNat slot.tag]

/-- Programs which cost nothing; their witness is the slot and the output base
of an issuance. -/
def sampleCodec : SimplicityCodec where
  decode _ witness := match witness with
    | [tag, outputBase] => some ⟨List.replicate 32 0,
        [.slot tag.toNat, .action (.issue outputBase.toNat)], 0⟩
    | _ => none
  controlBlock bytes := some bytes
  padding _ _ := none
  isBudgetValid _ _ := true

/-- The token ids are those of issuances on the outpoints `1:0` and `1:1`. -/
def sampleParams : BinaryMarketParams where
  oraclePublicKey := 2
  collateralAssetId := 1
  yesTokenAssetId := 23
  noTokenAssetId := 41
  yesReissuanceTokenId := 21
  noReissuanceTokenId := 39
  basePayout := 100
  expiryHeight := 10

def creationTransaction : Transaction where
  lockTime := 11
  input := [
    { previousOutput := ⟨1, 0⟩
      assetIssuance := ⟨0, 0, .null, .explicit 1⟩ },
    { previousOutput := ⟨1, 1⟩
      assetIssuance := ⟨0, 0, .null, .explicit 1⟩ }]
  output := [
    { asset := .confidential true 21
      value := .confidential false 21
      scriptPubkey := sampleSlotScript sampleParams .dormantYesRt },
    { asset := .confidential true 39
      value := .confidential false 39
      scriptPubkey := sampleSlotScript sampleParams .dormantNoRt }]

def issueTransaction : Transaction where
  lockTime := 13
  input := [
    { previousOutput := ⟨11, 0⟩
      assetIssuance := ⟨RtSide.a.abf, 6, .explicit 5, .null⟩
      scriptWitness := [[0, 0], [], List.replicate 32 0, [0xc0, 0]] },
    { previousOutput := ⟨11, 1⟩
      assetIssuance := ⟨RtSide.a.abf, 12, .explicit 5, .null⟩ }]
  output := [
    { asset := .confidential false 21
      value := .confidential false 21
      scriptPubkey := sampleSlotScript sampleParams .unresolvedYesRt },
    { asset := .confidential false 39
      value := .confidential false 39
      scriptPubkey := sampleSlotScript sampleParams .unresolvedNoRt },
    { asset := .explicit 1
      value := .explicit 1000
      scriptPubkey := sampleSlotScript sampleParams .unresolvedCollateral }]

end DeadcatNode
