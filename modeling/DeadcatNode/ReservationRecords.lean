import DeadcatNode.FirmQuotes

/-!
# Records of the reservation book

Reservations with their firm quotes, signing intents and artifacts, as the
provider persists them, and the checks a record passes whenever it is read.
-/

namespace DeadcatNode

open Checked

def maxSettlementBytes : ℕ := 1000000

/-! ## Errors -/

inductive InventoryState where
  | available
  | reserved (reservationId : ReservationId)
  | committed (reservationId : ReservationId) (commitment : SigningCommitment)
deriving DecidableEq

/-- The ways in which persisted state can be internally inconsistent. -/
inductive Corruption where
  | invalidInventory
  | inventoryKeyMismatch (outpoint : OutPoint)
  | lookupNotSorted
  | publishedOutputMissing (outpoint : OutPoint)
  | publishedOutputDisagrees (outpoint : OutPoint)
  | invalidFeePolicy
  | invalidTransactionFee
  | invalidSigningLocator
  | invalidSigningPayload
  | invalidSignedArtifact
  | signedArtifactDigest
  | reservationKeyMismatch
  | reservationIdMismatch
  | outpointCount
  | deadlineNotAfterCreation
  | invalidOutpoint (outpoint : OutPoint)
  | outpointsNotSorted
  | legacyDigest
  | signingFee (violation : FeePolicyViolation)
  | signingTargets
  | signingCommitment
  | quoteContext
  | quoteCommitment
  | quoteRequestDigest
  | quoteInputs
  | quoteInputCount
  | quoteInput
  | quoteOutputCount
  | quoteOutputShape
  | quoteEconomics
  | quoteRate
  | quoteRateNotNormalized
  | quotePair
  | quoteRecipient
  | quoteSelectedInventory
  | exactInputZero
  | feeConsumesExactInput
  | quotePricingOverflow
  | quoteOutputOverflow
  | exactInputPricing
  | exactOutputZero
  | exactOutputOverflow
  | exactOutputPricing
  | quoteVenueFee
  | quoteNotCovered
  | quoteChange
  | quoteChangeRecovery
  | receiveRecovery
  | missingProviderPayment
  | receiveRecoveryScript
  | changeRecovery
  | changeRecoveryScript
  | notAFirmQuote
  | missingReservation
  | bindingDisagrees
  | expirationDisagrees
  | expirationOfTerminal
  | reservedOutpointUnallocated (outpoint : OutPoint)
  | reservedOutpointAllocatedElsewhere (outpoint : OutPoint)
  | committedOutpointUnallocated (outpoint : OutPoint)
  | committedOutpointAllocatedElsewhere (outpoint : OutPoint)
  | missingExpiration
  | missingLiveQuote
  | unexpectedLiveQuote
  | invalidLiveQuote
  | reservedOutpointMissing (outpoint : OutPoint)
  | invalidReservationPlan
  | missingSigningJob
  | wrongFeePolicyAsset (reservationId : ReservationId)
  | requestDigest (reservationId : ReservationId)
  | missingHighWaterMark
  | reservationTime (reservationId : ReservationId)
  | quoteInventory
  | indexDisagrees (reservationId : ReservationId)
  | allocationDisagrees
  | auditSequence
  | auditTime
  | auditEvent
  | auditShape
deriving DecidableEq

inductive ProviderError where
  | providerIdentityMismatch (expected actual : ProviderIdentity)
  | clockRegression (previous now : UnixMillis)
  | inventorySnapshotObservedInFuture (observedAt now : UnixMillis)
  | inventorySnapshotStale (observedAt now : UnixMillis) (maximumAge : ℕ)
  | auditSequenceOverflow
  | allocationRevisionOverflow
  | corruptState (corruption : Corruption)
  | wrongPolicyAsset (expected actual : AssetId)
  | unknownInventory (outpoint : OutPoint)
  | inventoryMetadataConflict (outpoint : OutPoint)
  | duplicateInventoryOutpoint (outpoint : OutPoint)
  | outpointUnavailable (outpoint : OutPoint) (state : InventoryState)
  | idempotencyConflict (owner : OwnerId) (key : IdempotencyKey)
  | firmQuoteRequestDigestMismatch
  | firmQuoteSnapshotMismatch
  | eligibleInventoryChanged
  | firmQuoteInventoryMismatch (outpoint : OutPoint)
  | firmQuoteDraftInvalid
  | reservationIdCollision (reservationId : ReservationId)
  | reservationDeadlineElapsed (acceptBefore now : UnixMillis)
  | quoteDeadlineOverflow
  | liveQuoteCountOverflow
  | ownerLiveQuoteLimit (owner : OwnerId) (maximum : ℕ)
  | globalLiveQuoteLimit (maximum : ℕ)
  | reservationNotFound (reservationId : ReservationId)
  | reservationOwnerMismatch (reservationId : ReservationId)
  | reservationAlreadyReleased (reservationId : ReservationId)
  | pointOfNoReturn (reservationId : ReservationId)
  | validatedIntentBindingMismatch (reservationId : ReservationId)
  | differentSigningIntent (reservationId : ReservationId)
  | emptySettlementPayload
  | settlementPayloadTooLarge (maximum actual : ℕ)
  | signingIntentNotCommitted (reservationId : ReservationId)
  | signingCommitmentMismatch (reservationId : ReservationId) (expected actual : SigningCommitment)
  | signingJobBindingMismatch (reservationId : ReservationId)
  | signedArtifactBindingMismatch (reservationId : ReservationId)
  | differentSignedArtifact (reservationId : ReservationId)
  | feePolicy (violation : FeePolicyViolation)
deriving DecidableEq

abbrev corrupt (corruption : Corruption) : ProviderError :=
  .corruptState corruption

/-! ## Signing -/

def validateSettlementBytes (bytes : Bytes) : Except ProviderError Unit := do
  require (bytes ≠ []) .emptySettlementPayload
  require (bytes.length ≤ maxSettlementBytes)
    (.settlementPayloadTooLarge maxSettlementBytes bytes.length)

structure StoredSigningIntent where
  commitment : SigningCommitment
  preSignPayload : Bytes
  fee : StoredTransactionFee
  committedAt : UnixMillis
  targets : List StoredSigningTarget
deriving DecidableEq

structure SigningJob where
  reservationId : ReservationId
  commitment : SigningCommitment
  preSignPayload : Bytes
  fee : StoredTransactionFee
  targets : List StoredSigningTarget
deriving DecidableEq

structure StoredSignedArtifact where
  digest : SignedArtifactDigest
  bytes : Bytes
  signedAt : UnixMillis
deriving DecidableEq

structure SignedArtifact where
  reservationId : ReservationId
  commitment : SigningCommitment
  digest : SignedArtifactDigest
  bytes : Bytes
deriving DecidableEq

def StoredSigningTarget.toDomain (target : StoredSigningTarget) :
    Except ProviderError StoredSigningTarget := do
  require (target.walletLocator ≠ 0) (corrupt .invalidSigningLocator)
  return target

def StoredTransactionFee.toDomain (fee : StoredTransactionFee) :
    Except ProviderError StoredTransactionFee := do
  require fee.Valid (corrupt .invalidTransactionFee)
  return fee

def StoredSigningIntent.toJob (intent : StoredSigningIntent)
    (reservationId : ReservationId) : Except ProviderError SigningJob := do
  (validateSettlementBytes intent.preSignPayload).mapError fun _ => corrupt .invalidSigningPayload
  let fee ← intent.fee.toDomain
  let targets ← intent.targets.mapM StoredSigningTarget.toDomain
  return ⟨reservationId, intent.commitment, intent.preSignPayload, fee, targets⟩

def StoredSignedArtifact.toDomain (crypto : ProviderCrypto)
    (artifact : StoredSignedArtifact) (reservationId : ReservationId)
    (commitment : SigningCommitment) : Except ProviderError SignedArtifact := do
  (validateSettlementBytes artifact.bytes).mapError fun _ => corrupt .invalidSignedArtifact
  require (crypto.signedArtifact commitment artifact.bytes = artifact.digest)
    (corrupt .signedArtifactDigest)
  return ⟨reservationId, commitment, artifact.digest, artifact.bytes⟩

/-! ## Reservations -/

inductive ReleaseReason where
  | expired
  | clientCancelled
  | providerRejected
deriving DecidableEq

inductive StoredReservationState where
  | reserved
  | released (reason : ReleaseReason) (at' : UnixMillis)
  | committed (intent : StoredSigningIntent)
  | signed (intent : StoredSigningIntent) (artifact : StoredSignedArtifact)
deriving DecidableEq

structure StoredFirmQuote where
  request : FirmQuoteRequest
  execution : QuoteExecution
  pricing : PricingDecision
  snapshot : QuoteSnapshotEvidence
  contribution : QuoteContribution
  providerReceiveInternalKey : XOnlyPublicKey
  providerReceiveWalletLocator : WalletKeyLocator
  providerChangeInternalKey : Option XOnlyPublicKey
  providerChangeWalletLocator : Option WalletKeyLocator
  selectedAsset : AssetId
  selectedAmount : ℕ
deriving DecidableEq

def StoredFirmQuote.fromDomain (quote : FirmQuote) (draft : FirmQuoteDraft) : StoredFirmQuote :=
  ⟨quote.request, quote.execution, quote.pricing, quote.snapshot,
    quote.contribution, draft.providerReceiveRecovery.internalKey,
    draft.providerReceiveRecovery.walletLocator,
    draft.providerChangeRecovery.map DestinationRecovery.internalKey,
    draft.providerChangeRecovery.map DestinationRecovery.walletLocator,
    draft.selectedAsset, draft.selectedAmount⟩

structure StoredReservation where
  id : ReservationId
  owner : OwnerId
  idempotencyKey : IdempotencyKey
  semanticRequestDigest : QuoteRequestDigest
  requestDigest : ℕ
  quoteCommitment : QuoteCommitment
  quote : Option StoredFirmQuote
  outpoints : List OutPoint
  createdAt : UnixMillis
  acceptBefore : UnixMillis
  feePolicy : StoredFeePolicy
  state : StoredReservationState
deriving DecidableEq

namespace StoredReservation

def release (record : StoredReservation) (reason : ReleaseReason)
    (at' : UnixMillis) : StoredReservation :=
  { record with state := .released reason at' }

def commit (record : StoredReservation) (intent : StoredSigningIntent) : StoredReservation :=
  { record with state := .committed intent }

def sign (record : StoredReservation) (intent : StoredSigningIntent)
    (artifact : StoredSignedArtifact) : StoredReservation :=
  { record with state := .signed intent artifact }

end StoredReservation

def signingCommitment (crypto : ProviderCrypto) (reservation : StoredReservation)
    (preSignPayload : Bytes) (fee : StoredTransactionFee)
    (targets : List StoredSigningTarget) : SigningCommitment :=
  crypto.signingTranscript ⟨reservation.requestDigest, reservation.id,
    reservation.outpoints, reservation.quoteCommitment, reservation.feePolicy, fee,
    targets, preSignPayload⟩

def storedRequestDigest (crypto : ProviderCrypto) (identity : ProviderIdentity)
    (reservation : StoredReservation) : ℕ :=
  crypto.requestFingerprint ⟨identity, reservation.owner,
    reservation.idempotencyKey, reservation.semanticRequestDigest,
    reservation.quoteCommitment, reservation.outpoints, reservation.acceptBefore,
    reservation.feePolicy⟩

def StoredFeePolicy.toDomain (policy : StoredFeePolicy) : Except ProviderError StoredFeePolicy := do
  require policy.Valid (corrupt .invalidFeePolicy)
  return policy

def StoredSigningIntent.validate (crypto : ProviderCrypto)
    (intent : StoredSigningIntent) (reservation : StoredReservation)
    (policy : StoredFeePolicy) : Except ProviderError Unit := do
  (validateSettlementBytes intent.preSignPayload).mapError fun _ => corrupt .invalidSigningPayload
  let fee ← intent.fee.toDomain
  (policy.validate fee).mapError fun violation => corrupt (.signingFee violation)
  require (intent.targets.map StoredSigningTarget.outpoint =
    reservation.outpoints) (corrupt .signingTargets)
  intent.targets.forM fun target => do
    let _ ← target.toDomain
  require (signingCommitment crypto reservation intent.preSignPayload fee
    intent.targets = intent.commitment) (corrupt .signingCommitment)

def StoredReservationState.validate (crypto : ProviderCrypto)
    (reservation : StoredReservation) (policy : StoredFeePolicy) :
    StoredReservationState → Except ProviderError Unit
  | .reserved | .released _ _ => .ok ()
  | .committed intent => intent.validate crypto reservation policy
  | .signed intent artifact => do
      intent.validate crypto reservation policy
      let _ ← artifact.toDomain crypto reservation.id intent.commitment

def StoredReservation.validate (crypto : ProviderCrypto)
    (reservation : StoredReservation) : Except ProviderError Unit := do
  require (reservation.id = crypto.deriveReservationId reservation.owner reservation.idempotencyKey)
    (corrupt .reservationIdMismatch)
  require (¬(reservation.outpoints = [] ∨
    maxReservationInputs < reservation.outpoints.length)) (corrupt .outpointCount)
  require (reservation.createdAt < reservation.acceptBefore) (corrupt .deadlineNotAfterCreation)
  reservation.outpoints.forM fun outpoint =>
    require outpoint.Spendable (corrupt (.invalidOutpoint outpoint))
  require (reservation.outpoints.Pairwise (· < ·)) (corrupt .outpointsNotSorted)
  let policy ← reservation.feePolicy.toDomain
  require (reservation.quote = none →
    reservation.semanticRequestDigest = reservation.quoteCommitment) (corrupt .legacyDigest)
  reservation.state.validate crypto reservation policy

/-! ## Views -/

inductive ReservationState where
  | reserved
  | released (reason : ReleaseReason) (at' : UnixMillis)
  | committed (commitment : SigningCommitment) (committedAt : UnixMillis)
  | signed (commitment : SigningCommitment) (artifact : SignedArtifactDigest)
      (committedAt signedAt : UnixMillis)
deriving DecidableEq

structure ReservationView where
  id : ReservationId
  owner : OwnerId
  quoteCommitment : QuoteCommitment
  outpoints : List OutPoint
  createdAt : UnixMillis
  acceptBefore : UnixMillis
  feePolicy : StoredFeePolicy
  state : ReservationState
deriving DecidableEq

def StoredReservationState.toView : StoredReservationState → ReservationState
  | .reserved => .reserved
  | .released reason at' => .released reason at'
  | .committed intent => .committed intent.commitment intent.committedAt
  | .signed intent artifact =>
    .signed intent.commitment artifact.digest intent.committedAt artifact.signedAt

def StoredReservation.toView (crypto : ProviderCrypto)
    (reservation : StoredReservation) : Except ProviderError ReservationView := do
  reservation.validate crypto
  let feePolicy ← reservation.feePolicy.toDomain
  return ⟨reservation.id, reservation.owner, reservation.quoteCommitment,
    reservation.outpoints, reservation.createdAt, reservation.acceptBefore,
    feePolicy, reservation.state.toView⟩

/-! ## Persisted quotes -/

def TxOut.Blinded (output : TxOut) : Prop :=
  (match output.asset with | .confidential _ _ => True | _ => False) ∧
  (match output.value with | .confidential _ _ => True | _ => False) ∧
  (match output.nonce with | .confidential _ _ => True | _ => False) ∧
  output.witness.surjectionProof ≠ none ∧ output.witness.rangeproof ≠ none

instance (output : TxOut) : Decidable output.Blinded := by
  unfold TxOut.Blinded
  cases output.asset <;> cases output.value <;> cases output.nonce <;> infer_instance

def expectedRoles (count : ℕ) : Option (List QuoteOutputRole) :=
  if count = 2 then some [.providerPayment, .takerReceive]
  else if count = 3 then some [.providerPayment, .takerReceive, .providerChange]
  else none

def QuotedOutput.WellShaped (output : QuotedOutput) (id : ℕ)
    (role : QuoteOutputRole) (providerBlinder : QuoteBlinderRole) : Prop :=
  output.id = id ∧ output.role = role ∧ output.amount ≠ 0 ∧
    output.blinder = if role = .providerPayment then .takerPaymentInput
      else providerBlinder

instance (output : QuotedOutput) (id : ℕ) (role : QuoteOutputRole)
    (providerBlinder : QuoteBlinderRole) :
    Decidable (output.WellShaped id role providerBlinder) := by
  unfold QuotedOutput.WellShaped
  infer_instance

def validateFirmQuoteShape (quote : FirmQuote) : Except ProviderError Unit := do
  let inputs := quote.contribution.inputs
  let outputs := quote.contribution.outputs
  require (¬(inputs = [] ∨ maxReservationInputs < inputs.length)) (corrupt .quoteInputCount)
  inputs.zipIdx.forM fun (input, index) =>
    require (input.id = index + 1 ∧ input.witnessUtxo.Blinded) (corrupt .quoteInput)
  let roles ← okOr (expectedRoles outputs.length) (corrupt .quoteOutputCount)
  let providerBlinder ← okOr quote.contribution.providerBlinder (corrupt .quoteInputCount)
  (outputs.zip roles).zipIdx.forM fun ((output, role), index) =>
    require (output.WellShaped (index + 1) role providerBlinder) (corrupt .quoteOutputShape)
  let execution := quote.execution
  require ((∃ payment ∈ outputs[0]?, payment.asset = execution.input.asset ∧
      payment.amount = execution.input.amount) ∧
    (∃ receive ∈ outputs[1]?, receive.asset = execution.output.asset ∧
      receive.amount = execution.output.amount ∧
      receive.destination = quote.request.recipient) ∧
    execution.inputAssetVenueFee = quote.pricing.inputAssetVenueFee) (corrupt .quoteEconomics)

namespace StoredFirmQuote

/-- The amounts of a persisted quote, priced again. -/
def validatePricing (stored : StoredFirmQuote) : Except ProviderError Unit :=
  let rate := stored.pricing.rate
  let fee := stored.pricing.inputAssetVenueFee
  match stored.request.kind with
  | .exactIn input outputAsset minimumOutput => do
      require (¬(input.amount = 0 ∨ minimumOutput = 0)) (corrupt .exactInputZero)
      let pricedInput ← okOr ((checkedSub input.amount fee).filter fun amount => amount ≠ 0)
        (corrupt .feeConsumesExactInput)
      let product ← okOr (checkedMul 128 pricedInput rate.numerator) (corrupt .quotePricingOverflow)
      let output := product / rate.denominator
      require (output < 2 ^ 64) (corrupt .quoteOutputOverflow)
      require (¬(output = 0 ∨ output < minimumOutput ∨ stored.execution.input ≠ input ∨
        stored.execution.output.asset ≠ outputAsset ∨
        stored.execution.output.amount ≠ output)) (corrupt .exactInputPricing)
  | .exactOut inputAsset maximumInput output => do
      require (¬(maximumInput = 0 ∨ output.amount = 0)) (corrupt .exactOutputZero)
      let product := output.amount * rate.denominator
      let divisor := rate.numerator
      require (divisor ≠ 0) (corrupt .quoteRate)
      let pricedInput := product / divisor + if product % divisor = 0 then 0 else 1
      let grossInput ← okOr (if pricedInput < 2 ^ 64 then checkedAdd 64 pricedInput fee else none)
        (corrupt .exactOutputOverflow)
      require (¬(grossInput = 0 ∨ maximumInput < grossInput ∨
        stored.execution.input.asset ≠ inputAsset ∨
        stored.execution.input.amount ≠ grossInput ∨
        stored.execution.output ≠ output)) (corrupt .exactOutputPricing)

def changeOutputs (contribution : QuoteContribution) : List QuotedOutput :=
  contribution.outputs.filter fun output => output.role = .providerChange

/-- The change output and its recovery metadata are there exactly when the
selected inventory exceeds the output. -/
def validateChange (stored : StoredFirmQuote) (quote : FirmQuote) : Except ProviderError Unit := do
  let change ← okOr (checkedSub stored.selectedAmount quote.execution.output.amount)
    (corrupt .quoteNotCovered)
  let outputs := changeOutputs quote.contribution
  require ((change = 0 → outputs = []) ∧ (change ≠ 0 → outputs.length = 1 ∧ ∃ output ∈ outputs[0]?,
      output.asset = stored.selectedAsset ∧ output.amount = change)) (corrupt .quoteChange)
  require (stored.providerChangeInternalKey.isSome = stored.providerChangeWalletLocator.isSome ∧
    (stored.providerChangeInternalKey.isSome = true ↔ change ≠ 0)) (corrupt .quoteChangeRecovery)

/-- The recovery keys are the ones of the quoted scripts. -/
def validateRecovery (crypto : ProviderCrypto) (stored : StoredFirmQuote)
    (quote : FirmQuote) : Except ProviderError Unit := do
  require (stored.providerReceiveWalletLocator ≠ 0) (corrupt .receiveRecovery)
  let payment ← okOr (quote.contribution.outputs.find? fun output =>
    output.role = .providerPayment) (corrupt .missingProviderPayment)
  require (payment.destination.scriptPubkey = crypto.newV1P2tr stored.providerReceiveInternalKey)
    (corrupt .receiveRecoveryScript)
  match stored.providerChangeWalletLocator, stored.providerChangeInternalKey with
  | some locator, some key => do
      require (locator ≠ 0) (corrupt .changeRecovery)
      let change ← okOr (changeOutputs quote.contribution).head? (corrupt .changeRecovery)
      require (change.destination.scriptPubkey = crypto.newV1P2tr key)
        (corrupt .changeRecoveryScript)
  | _, _ => .ok ()

def validate (crypto : ProviderCrypto) (stored : StoredFirmQuote)
    (provider : ProviderIdentity) (reservation : StoredReservation)
    (quote : FirmQuote) : Except ProviderError Unit := do
  let context := stored.request.context
  require (¬(context.chain.genesisHash ≠ provider.genesisHash ∨
    context.policyAsset ≠ provider.policyAsset ∨
    context.market.creationAnchor.isNull)) (corrupt .quoteContext)
  require (quoteRequestDigest crypto provider reservation.owner
    reservation.idempotencyKey stored.request =
      reservation.semanticRequestDigest) (corrupt .quoteRequestDigest)
  require (quote.contribution.inputs.map QuotedProviderInput.outpoint =
    reservation.outpoints) (corrupt .quoteInputs)
  validateFirmQuoteShape quote
  let normalized ← (RationalRate.new stored.pricing.rate.numerator
    stored.pricing.rate.denominator).mapError fun _ => corrupt .quoteRate
  require (normalized = stored.pricing.rate) (corrupt .quoteRateNotNormalized)
  let pair := stored.request.kind.pair
  require (¬(pair.1 = pair.2 ∨ stored.execution.input.asset ≠ pair.1 ∨
    stored.execution.output.asset ≠ pair.2)) (corrupt .quotePair)
  (stored.request.recipient.validate crypto.isProvablyUnspendable).mapError
    fun _ => corrupt .quoteRecipient
  require (¬(stored.selectedAmount = 0 ∨ stored.selectedAsset ≠ quote.execution.output.asset))
    (corrupt .quoteSelectedInventory)
  stored.validatePricing
  require (stored.execution.inputAssetVenueFee ≤
    stored.request.maximumInputAssetVenueFee) (corrupt .quoteVenueFee)
  stored.validateChange quote
  stored.validateRecovery crypto quote

def toQuote (crypto : ProviderCrypto) (stored : StoredFirmQuote)
    (provider : ProviderIdentity) (reservation : StoredReservation) : FirmQuote where
  reservationId := reservation.id
  provider := provider
  request := stored.request
  execution := stored.execution
  pricing := stored.pricing
  snapshot := stored.snapshot
  contribution := stored.contribution
  createdAt := reservation.createdAt
  acceptBefore := reservation.acceptBefore
  feePolicy := reservation.feePolicy
  recoveryMetadataCommitment :=
    recoveryMetadataCommitment crypto provider reservation.id
      ⟨stored.providerReceiveInternalKey, stored.providerReceiveWalletLocator⟩
      stored.providerChangeInternalKey stored.providerChangeWalletLocator
  commitment := reservation.quoteCommitment

def toDomain (crypto : ProviderCrypto) (stored : StoredFirmQuote)
    (provider : ProviderIdentity) (reservation : StoredReservation) :
    Except ProviderError FirmQuote := do
  let _ ← reservation.feePolicy.toDomain
  let quote := stored.toQuote crypto provider reservation
  require (recomputeQuoteCommitment crypto reservation.owner
    reservation.idempotencyKey reservation.semanticRequestDigest quote =
      quote.commitment) (corrupt .quoteCommitment)
  stored.validate crypto provider reservation quote
  return quote

end StoredFirmQuote

structure FirmQuoteOutcome where
  quote : FirmQuote
  reservation : ReservationView
  created : Bool
deriving DecidableEq

def StoredReservation.toFirmQuoteOutcome (crypto : ProviderCrypto)
    (reservation : StoredReservation) (provider : ProviderIdentity)
    (created : Bool) : Except ProviderError FirmQuoteOutcome := do
  let stored ← okOr reservation.quote (corrupt .notAFirmQuote)
  let quote ← stored.toDomain crypto provider reservation
  let view ← reservation.toView crypto
  return ⟨quote, view, created⟩

structure StoredRequestBinding where
  reservationId : ReservationId
  semanticRequestDigest : QuoteRequestDigest
  requestDigest : ℕ
deriving DecidableEq

inductive StoredAllocation where
  | reserved (reservationId : ReservationId)
  | committed (reservationId : ReservationId) (commitment : SigningCommitment)
deriving DecidableEq

def StoredAllocation.toView : StoredAllocation → InventoryState
  | .reserved reservationId => .reserved reservationId
  | .committed reservationId commitment => .committed reservationId commitment

def StoredAllocation.reservationId : StoredAllocation → ReservationId
  | .reserved reservationId | .committed reservationId _ => reservationId

inductive StoredAuditEvent where
  | inventoryImported (outpoint : OutPoint)
  | reservationCreated (reservationId : ReservationId) (outpoints : List OutPoint)
  | reservationReleased (reservationId : ReservationId) (reason : ReleaseReason)
  | signingCommitted (reservationId : ReservationId) (commitment : SigningCommitment)
  | signedArtifactStored (reservationId : ReservationId) (artifact : SignedArtifactDigest)
deriving DecidableEq

structure StoredAuditEntry where
  sequence : ℕ
  at' : UnixMillis
  event : StoredAuditEvent
deriving DecidableEq

end DeadcatNode
