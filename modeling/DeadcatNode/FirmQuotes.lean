import DeadcatNode.QuoteExecution

/-!
# Firm quotes

The contribution a provider makes to a settlement, the draft of a quote, the
quote itself and the transcripts its digests commit to.  Hashing is given from
outside: a digest is a function of the transcript it is taken of.
-/

namespace DeadcatNode

open Checked

/-! ## Contributions -/

inductive QuoteBlinderRole where
  | takerPaymentInput
  | providerInput (id : ℕ)
deriving DecidableEq

inductive QuoteOutputRole where
  | providerPayment
  | takerReceive
  | providerChange
deriving DecidableEq

structure QuotedProviderInput where
  id : ℕ
  outpoint : OutPoint
  witnessUtxo : TxOut
  inventoryBinding : InventoryBinding
deriving DecidableEq

structure QuotedOutput where
  id : ℕ
  role : QuoteOutputRole
  asset : AssetId
  amount : ℕ
  destination : QuoteRecipient
  blinder : QuoteBlinderRole
deriving DecidableEq

/-- All of a quoted output but its destination. -/
def QuotedOutput.Matches (output : QuotedOutput) (id : ℕ)
    (role : QuoteOutputRole) (asset : AssetId) (amount : ℕ) (blinder : QuoteBlinderRole) : Prop :=
  output.id = id ∧ output.role = role ∧ output.asset = asset ∧
    output.amount = amount ∧ output.blinder = blinder

instance (output : QuotedOutput) (id : ℕ) (role : QuoteOutputRole)
    (asset : AssetId) (amount : ℕ) (blinder : QuoteBlinderRole) :
    Decidable (output.Matches id role asset amount blinder) := by
  unfold QuotedOutput.Matches
  infer_instance

structure QuoteContribution where
  inputs : List QuotedProviderInput
  outputs : List QuotedOutput
deriving DecidableEq

def QuoteContribution.providerBlinder (contribution : QuoteContribution) :
    Option QuoteBlinderRole :=
  contribution.inputs.head?.map fun input => .providerInput input.id

structure QuoteSnapshotEvidence where
  anchor : WalletScanAnchor
  commitment : InventorySnapshotCommitment
  allocationRevision : ℕ
  eligibleCommitment : ℕ
deriving DecidableEq

structure DestinationRecovery where
  internalKey : XOnlyPublicKey
  walletLocator : WalletKeyLocator
deriving DecidableEq

/-! ## Quotes -/

structure FirmQuote where
  reservationId : ReservationId
  provider : ProviderIdentity
  request : FirmQuoteRequest
  execution : QuoteExecution
  pricing : PricingDecision
  snapshot : QuoteSnapshotEvidence
  contribution : QuoteContribution
  createdAt : UnixMillis
  acceptBefore : UnixMillis
  feePolicy : StoredFeePolicy
  recoveryMetadataCommitment : ℕ
  commitment : QuoteCommitment
deriving DecidableEq

structure FirmQuoteDraft where
  request : FirmQuoteRequest
  execution : QuoteExecution
  pricing : PricingDecision
  snapshot : QuoteSnapshotEvidence
  contribution : QuoteContribution
  providerReceiveRecovery : DestinationRecovery
  providerChangeRecovery : Option DestinationRecovery
  selectedAsset : AssetId
  selectedAmount : ℕ
deriving DecidableEq

namespace FirmQuoteDraft

def selectedOutpoints (draft : FirmQuoteDraft) : List OutPoint :=
  draft.contribution.inputs.map QuotedProviderInput.outpoint

def MatchesExecution (draft : FirmQuoteDraft) (blinder : QuoteBlinderRole) : Prop :=
  (∃ payment ∈ draft.contribution.outputs[0]?,
    payment.Matches 1 .providerPayment draft.execution.input.asset
      draft.execution.input.amount .takerPaymentInput) ∧
  ∃ receive ∈ draft.contribution.outputs[1]?,
    receive.Matches 2 .takerReceive draft.execution.output.asset
      draft.execution.output.amount blinder ∧ receive.destination = draft.request.recipient

instance (draft : FirmQuoteDraft) (blinder : QuoteBlinderRole) :
    Decidable (draft.MatchesExecution blinder) := by
  unfold MatchesExecution
  infer_instance

def validate (isProvablyUnspendable : Script → Bool) (draft : FirmQuoteDraft) :
    Except QuoteAdmissionError Unit := do
  draft.request.validate isProvablyUnspendable
  draft.pricing.validate
  require (¬(draft.selectedAmount = 0 ∨
    draft.selectedAsset ≠ draft.execution.output.asset)) .invalidDerivedQuote
  let change ← okOr (checkedSub draft.selectedAmount draft.execution.output.amount)
    .invalidDerivedQuote
  let inputs := draft.contribution.inputs
  require (¬(inputs = [] ∨ maxReservationInputs < inputs.length)) .invalidDerivedQuote
  require (inputs.map QuotedProviderInput.id = List.range' 1 inputs.length) .invalidDerivedQuote
  require (draft.contribution.outputs.length = if change = 0 then 2 else 3) .invalidDerivedQuote
  let blinder ← okOr draft.contribution.providerBlinder .invalidDerivedQuote
  require (draft.MatchesExecution blinder) .invalidDerivedQuote
  require (change ≠ 0 → ∃ output ∈ draft.contribution.outputs[2]?,
    output.Matches 3 .providerChange draft.selectedAsset change blinder) .invalidDerivedQuote

end FirmQuoteDraft

structure QuoteEnginePolicy where
  quoteLifetimeMillis : ℕ
  maximumLiveQuotesPerOwner : ℕ
  maximumLiveQuotesGlobal : ℕ
  feePolicy : FeePolicy
  lifetime_pos : 0 < quoteLifetimeMillis
  limits : 0 < maximumLiveQuotesPerOwner ∧ 0 < maximumLiveQuotesGlobal ∧
    maximumLiveQuotesPerOwner ≤ maximumLiveQuotesGlobal

/-! ## Transcripts -/

/-- The part of a request its digest commits to.  The chain is the one of the
provider. -/
structure StoredQuoteRequest where
  provider : ProviderIdentity
  owner : OwnerId
  idempotencyKey : IdempotencyKey
  network : LiquidNetwork
  market : OutPoint
  policyAsset : AssetId
  kind : QuoteKind
  recipient : QuoteRecipient
  maximumInputAssetVenueFee : ℕ
deriving DecidableEq

def StoredQuoteRequest.fromDomain (provider : ProviderIdentity)
    (owner : OwnerId) (key : IdempotencyKey) (request : FirmQuoteRequest) :
    StoredQuoteRequest :=
  ⟨provider, owner, key, request.context.chain.network,
    request.context.market.creationAnchor, request.context.policyAsset,
    request.kind, request.recipient, request.maximumInputAssetVenueFee⟩

structure StoredQuoteTranscript where
  requestDigest : QuoteRequestDigest
  owner : OwnerId
  idempotencyKey : IdempotencyKey
  reservationId : ReservationId
  provider : ProviderIdentity
  request : StoredQuoteRequest
  execution : QuoteExecution
  pricing : PricingDecision
  snapshot : QuoteSnapshotEvidence
  contribution : QuoteContribution
  createdAt : UnixMillis
  acceptBefore : UnixMillis
  feePolicy : StoredFeePolicy
  recoveryMetadataCommitment : ℕ
deriving DecidableEq

def StoredQuoteTranscript.fromDomain (owner : OwnerId) (key : IdempotencyKey)
    (requestDigest : QuoteRequestDigest) (quote : FirmQuote) :
    StoredQuoteTranscript :=
  ⟨requestDigest, owner, key, quote.reservationId, quote.provider,
    .fromDomain quote.provider owner key quote.request, quote.execution,
    quote.pricing, quote.snapshot, quote.contribution, quote.createdAt,
    quote.acceptBefore, quote.feePolicy, quote.recoveryMetadataCommitment⟩

structure StoredRecoveryMetadata where
  provider : ProviderIdentity
  reservationId : ReservationId
  providerReceive : DestinationRecovery
  providerChangeInternalKey : Option XOnlyPublicKey
  providerChangeWalletLocator : Option WalletKeyLocator
deriving DecidableEq

structure StoredRequestFingerprint where
  identity : ProviderIdentity
  owner : OwnerId
  idempotencyKey : IdempotencyKey
  semanticRequestDigest : QuoteRequestDigest
  quoteCommitment : QuoteCommitment
  outpoints : List OutPoint
  acceptBefore : UnixMillis
  feePolicy : StoredFeePolicy
deriving DecidableEq

structure StoredSigningTarget where
  outpoint : OutPoint
  walletLocator : WalletKeyLocator
  internalKey : XOnlyPublicKey
  inventoryBinding : InventoryBinding
deriving DecidableEq

def StoredSigningTarget.fromInventory (item : StoredInventoryItem) : StoredSigningTarget :=
  ⟨item.outpoint, item.walletLocator, item.internalKey, item.binding⟩

structure StoredSigningTranscript where
  requestDigest : ℕ
  reservationId : ReservationId
  outpoints : List OutPoint
  quoteCommitment : QuoteCommitment
  feePolicy : StoredFeePolicy
  fee : StoredTransactionFee
  targets : List StoredSigningTarget
  preSignPayload : Bytes
deriving DecidableEq

/-- Hashing and script construction, given from outside. -/
structure ProviderCrypto where
  isProvablyUnspendable : Script → Bool
  newV1P2tr : XOnlyPublicKey → Script
  deriveReservationId : OwnerId → IdempotencyKey → ReservationId
  quoteRequest : StoredQuoteRequest → QuoteRequestDigest
  quoteTranscript : StoredQuoteTranscript → QuoteCommitment
  recoveryMetadata : StoredRecoveryMetadata → ℕ
  requestFingerprint : StoredRequestFingerprint → ℕ
  signingTranscript : StoredSigningTranscript → SigningCommitment
  signedArtifact : SigningCommitment → Bytes → SignedArtifactDigest
  recomputeInventoryBinding : StoredInventoryItem → TxOut → InventoryBinding
  eligibleInventory : List (OutPoint × InventoryBinding) → ℕ

variable (crypto : ProviderCrypto)

def quoteRequestDigest (provider : ProviderIdentity) (owner : OwnerId)
    (key : IdempotencyKey) (request : FirmQuoteRequest) : QuoteRequestDigest :=
  crypto.quoteRequest (.fromDomain provider owner key request)

def recoveryMetadataCommitment (provider : ProviderIdentity)
    (reservationId : ReservationId) (providerReceive : DestinationRecovery)
    (providerChangeInternalKey : Option XOnlyPublicKey)
    (providerChangeWalletLocator : Option WalletKeyLocator) : ℕ :=
  crypto.recoveryMetadata ⟨provider, reservationId, providerReceive,
    providerChangeInternalKey, providerChangeWalletLocator⟩

def recomputeQuoteCommitment (owner : OwnerId) (key : IdempotencyKey)
    (requestDigest : QuoteRequestDigest) (quote : FirmQuote) : QuoteCommitment :=
  crypto.quoteTranscript (.fromDomain owner key requestDigest quote)

def finalizeQuote (provider : ProviderIdentity) (owner : OwnerId)
    (key : IdempotencyKey) (requestDigest : QuoteRequestDigest)
    (reservationId : ReservationId) (draft : FirmQuoteDraft)
    (createdAt acceptBefore : UnixMillis) (feePolicy : StoredFeePolicy) :
    FirmQuote :=
  let quote : FirmQuote :=
    { reservationId
      provider
      request := draft.request
      execution := draft.execution
      pricing := draft.pricing
      snapshot := draft.snapshot
      contribution := draft.contribution
      createdAt
      acceptBefore
      feePolicy
      recoveryMetadataCommitment :=
        recoveryMetadataCommitment crypto provider reservationId draft.providerReceiveRecovery
          (draft.providerChangeRecovery.map DestinationRecovery.internalKey)
          (draft.providerChangeRecovery.map DestinationRecovery.walletLocator)
      commitment := 0 }
  { quote with
    commitment := recomputeQuoteCommitment crypto owner key requestDigest quote }

end DeadcatNode
