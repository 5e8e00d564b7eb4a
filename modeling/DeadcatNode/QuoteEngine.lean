import DeadcatNode.InventoryCoordinator
import DeadcatNode.InventorySelection

/-!
# Drafting a firm quote

What the quote engine computes between reading the eligible inventory and
reserving it: the configured pair, the price, the amounts, the selected outputs
and the contribution of the provider.  The pricing policy and the wallet which
hands out destinations are asked, and may answer anything.
-/

namespace DeadcatNode

open Checked

/-! ## Configured pairs -/

structure BinaryMarketAssets where
  collateral : AssetId
  yes : AssetId
  no : AssetId
  distinct : ¬(collateral = yes ∨ collateral = no ∨ yes = no)

namespace BinaryMarketAssets

def contains (assets : BinaryMarketAssets) (asset : AssetId) : Prop :=
  asset = assets.collateral ∨ asset = assets.yes ∨ asset = assets.no

instance (assets : BinaryMarketAssets) (asset : AssetId) : Decidable (assets.contains asset) := by
  unfold contains
  infer_instance

def isLaunchPair (assets : BinaryMarketAssets) (input output : AssetId) : Prop :=
  assets.contains input ∧ assets.contains output ∧ input ≠ output ∧
    (input = assets.collateral ∨ output = assets.collateral)

instance (assets : BinaryMarketAssets) (input output : AssetId) :
    Decidable (assets.isLaunchPair input output) := by
  unfold isLaunchPair
  infer_instance

end BinaryMarketAssets

structure PairRule where
  inputAsset : AssetId
  outputAsset : AssetId
  limits : PairLimits

structure MarketQuoteConfig where
  context : QuoteContext
  assets : BinaryMarketAssets
  pairs : List PairRule
  anchored : context.market.creationAnchor.Spendable
  enabled : pairs ≠ []
  launch : ∀ rule ∈ pairs, assets.isLaunchPair rule.inputAsset rule.outputAsset
  directions : (pairs.map fun rule => (rule.inputAsset, rule.outputAsset)).Nodup

structure PairCatalog (identity : ProviderIdentity) where
  markets : List MarketQuoteConfig
  nonempty : markets ≠ []
  chain : ∀ market ∈ markets, market.context.chain.genesisHash = identity.genesisHash ∧
      market.context.policyAsset = identity.policyAsset
  distinct : (markets.map fun market => market.context.market).Nodup

def PairCatalog.resolve {identity : ProviderIdentity}
    (catalog : PairCatalog identity) (context : QuoteContext) (input output : AssetId) :
    Except QuoteAdmissionError (MarketQuoteConfig × PairRule) := do
  let market ← okOr (catalog.markets.find? fun market => market.context = context)
    .marketNotConfigured
  let pair ← okOr (market.pairs.find? fun rule =>
    rule.inputAsset = input ∧ rule.outputAsset = output) .pairNotConfigured
  return (market, pair)

/-! ## Pricing -/

/-- Which side of a quote is exact, without the guard of the taker. -/
inductive PricingSide where
  | exactIn (grossInput : AssetAmount)
  | exactOut (output : AssetAmount)

def QuoteKind.side : QuoteKind → PricingSide
  | .exactIn input _ _ => .exactIn input
  | .exactOut _ _ output => .exactOut output

structure PricingRequest where
  context : QuoteContext
  inputAsset : AssetId
  outputAsset : AssetId
  side : PricingSide
  inventory : List AssetAmount

def addBalance (assets : BinaryMarketAssets) (totals : Table AssetId ℕ)
    (output : WalletOwnedOutput) : Except QuoteAdmissionError (Table AssetId ℕ) :=
  if assets.contains output.asset then do
    let total ← okOr (checkedAdd 64 (totals[output.asset]?.getD 0) output.amount) .amountOverflow
    return totals.insert output.asset total
  else .ok totals

def inventorySummary (eligible : EligibleInventory) (assets : BinaryMarketAssets) :
    Except QuoteAdmissionError (List AssetAmount) := do
  let totals ← eligible.outputs.foldlM (addBalance assets) ∅
  return totals.toList.map fun balance => ⟨balance.1, balance.2⟩

/-! ## Destinations -/

inductive DestinationPurpose where
  | settlementReceive
  | settlementChange

structure ConfidentialDestination (crypto : ProviderCrypto) where
  scriptPubkey : Script
  blindingPublicKey : ℕ
  internalKey : XOnlyPublicKey
  walletLocator : WalletKeyLocator
  exact : scriptPubkey = crypto.newV1P2tr internalKey

namespace ConfidentialDestination

variable {crypto : ProviderCrypto}

def recipient (destination : ConfidentialDestination crypto) : QuoteRecipient :=
  ⟨destination.scriptPubkey, destination.blindingPublicKey⟩

def recovery (destination : ConfidentialDestination crypto) : DestinationRecovery :=
  ⟨destination.internalKey, destination.walletLocator⟩

/-- Two destinations share a script, a blinding key or a wallet key. -/
def Reuses (destination other : ConfidentialDestination crypto) : Prop :=
  destination.scriptPubkey = other.scriptPubkey ∨
    destination.blindingPublicKey = other.blindingPublicKey ∨
    destination.walletLocator = other.walletLocator

instance (destination other : ConfidentialDestination crypto) :
    Decidable (destination.Reuses other) := by
  unfold Reuses
  infer_instance

end ConfidentialDestination

/-- What the wallet and the pricing policy answer when they are asked. -/
structure EngineAnswers (crypto : ProviderCrypto) (E : Type) where
  inventorySnapshot : Except E InventorySnapshot
  price : PricingRequest → Except E PricingDecision
  freshConfidentialDestination : DestinationPurpose → Except E (ConfidentialDestination crypto)

/-! ## Drafts -/

inductive QuoteEngineError (E : Type) where
  | admission (error : QuoteAdmissionError)
  | pricing (error : E)
  | destination (error : E)
  | inventory (error : InventoryCoordinatorError E)
  | provider (error : ProviderError)
deriving DecidableEq

def quotedInputs (selected : List WalletOwnedOutput) :
    Except QuoteAdmissionError (List QuotedProviderInput) :=
  selected.zipIdx.mapM fun (output, index) => do
    require (index + 1 < 2 ^ 16) .tooManyProviderInputs
    return ⟨index + 1, output.outpoint, output.txout, output.binding⟩

section Draft

variable {crypto : ProviderCrypto} {E : Type}

def changeOutput (execution : QuoteExecution) (blinder : QuoteBlinderRole)
    (providerChange : Option (ConfidentialDestination crypto)) (change : ℕ) :
    Except QuoteAdmissionError (List QuotedOutput) :=
  if change ≠ 0 then do
    let destination ← okOr providerChange .missingChangeDestination
    return [⟨3, .providerChange, execution.output.asset, change, destination.recipient, blinder⟩]
  else .ok []

def quoteContribution (selected : List WalletOwnedOutput)
    (execution : QuoteExecution) (recipient : QuoteRecipient)
    (providerReceive : ConfidentialDestination crypto)
    (providerChange : Option (ConfidentialDestination crypto)) (change : ℕ) :
    Except QuoteAdmissionError QuoteContribution := do
  let inputs ← quotedInputs selected
  let blinder ← okOr (QuoteContribution.providerBlinder ⟨inputs, []⟩) .insufficientInventory
  let changeOutputs ← changeOutput execution blinder providerChange change
  return ⟨inputs, [⟨1, .providerPayment, execution.input.asset, execution.input.amount,
        providerReceive.recipient, .takerPaymentInput⟩,
      ⟨2, .takerReceive, execution.output.asset, execution.output.amount,
        recipient, blinder⟩] ++ changeOutputs⟩

def EngineAnswers.changeDestination (answers : EngineAnswers crypto E)
    (change : ℕ) : Except E (Option (ConfidentialDestination crypto)) :=
  if change = 0 then .ok none
  else (answers.freshConfidentialDestination .settlementChange).map some

def EligibleInventory.evidence (eligible : EligibleInventory) : QuoteSnapshotEvidence :=
  ⟨eligible.anchor, eligible.token.snapshot, eligible.allocationRevision,
    eligible.eligibleCommitment⟩

/-- Price a request against the eligible inventory and select from it. -/
def draftQuote (answers : EngineAnswers crypto E) (request : FirmQuoteRequest)
    (market : MarketQuoteConfig) (pair : PairRule) (eligible : EligibleInventory) :
    Except (QuoteEngineError E) FirmQuoteDraft := do
  let summary ← (inventorySummary eligible market.assets).mapError .admission
  let pricing ← (answers.price ⟨request.context, request.kind.pair.1,
    request.kind.pair.2, request.kind.side, summary⟩).mapError .pricing
  pricing.validate.mapError .admission
  let execution ← (calculateExecution crypto.isProvablyUnspendable request pricing
    pair.limits).mapError .admission
  let selected ← (selectInventory eligible request.kind.pair.2
    execution.output.amount pair.limits).mapError .admission
  let selectedAmount ← (checkedTotal selected).mapError .admission
  let change ← okOr (checkedSub selectedAmount execution.output.amount) (.admission .amountOverflow)
  let providerReceive ← (answers.freshConfidentialDestination
    .settlementReceive).mapError .destination
  let providerChange ← (answers.changeDestination change).mapError .destination
  require (∀ destination ∈ providerChange, ¬destination.Reuses providerReceive)
    (.admission .reusedProviderDestination)
  let contribution ← (quoteContribution selected execution request.recipient
    providerReceive providerChange change).mapError .admission
  return {
    request
    execution
    pricing
    snapshot := eligible.evidence
    contribution
    providerReceiveRecovery := providerReceive.recovery
    providerChangeRecovery := providerChange.map ConfidentialDestination.recovery
    selectedAsset := request.kind.pair.2
    selectedAmount }

theorem draftQuote_snapshot {answers : EngineAnswers crypto E}
    {request : FirmQuoteRequest} {market : MarketQuoteConfig} {pair : PairRule}
    {eligible : EligibleInventory} {draft : FirmQuoteDraft}
    (hdraft : draftQuote answers request market pair eligible = .ok draft) :
    draft.snapshot = eligible.evidence ∧ draft.request = request := by
  simp only [draftQuote, bind_eq_ok, pure_eq_ok] at hdraft
  obtain ⟨_, _, _, _, _, _, _, _, _, _, _, _, _, _, _, _, _, _, _, _, _, _, rfl⟩ := hdraft
  exact ⟨rfl, rfl⟩

end Draft

structure EngineConfig (identity : ProviderIdentity) where
  catalog : PairCatalog identity
  policy : QuoteEnginePolicy
  freshness : InventoryFreshnessPolicy
  policyAsset : policy.feePolicy.val.policyAsset = identity.policyAsset

end DeadcatNode
