import DeadcatNode.ReservationRecords
import DeadcatNode.TableScans
import Mathlib.Data.List.Sort

/-!
# The reservation book

The provider's durable reservations as a state machine.  A timed operation
first commits the time it observed and then one write, which is dropped when it
fails; the whole operation holds the lock of the book.  Serialization is the
identity, so a row is the value it encodes.
-/

namespace DeadcatNode

open Checked

/-! ## Tables -/

abbrev RequestKey : Type := OwnerId ×ₗ IdempotencyKey

abbrev ExpirationKey : Type := UnixMillis ×ₗ ReservationId

abbrev LiveQuoteKey : Type := UnixMillis ×ₗ OwnerId ×ₗ ReservationId

instance : Std.TransOrd RequestKey := inferInstance

instance : Std.TransOrd ExpirationKey := inferInstance

instance : Std.TransOrd LiveQuoteKey := inferInstance

def requestKey (owner : OwnerId) (key : IdempotencyKey) : RequestKey :=
  toLex (owner, key)

def expirationKey (deadline : UnixMillis) (reservationId : ReservationId) : ExpirationKey :=
  toLex (deadline, reservationId)

def liveQuoteKey (deadline : UnixMillis) (owner : OwnerId)
    (reservationId : ReservationId) : LiveQuoteKey :=
  toLex (deadline, toLex (owner, reservationId))

/-- The database of one provider.  Its counters are written when it is created
and never removed. -/
structure ReservationBook where
  identity : ProviderIdentity
  lastObservedTime : Option UnixMillis := none
  auditSequence : ℕ := 0
  allocationRevision : ℕ := 0
  inventory : Table OutPoint StoredInventoryItem := ∅
  allocations : Table OutPoint StoredAllocation := ∅
  reservations : Table ReservationId StoredReservation := ∅
  requestKeys : Table RequestKey StoredRequestBinding := ∅
  expirations : Table ExpirationKey Unit := ∅
  liveQuotesByOwner : Table LiveQuoteKey Unit := ∅
  audit : Table ℕ StoredAuditEntry := ∅

/-- What a committed write leaves: the result of the operation, which may be an
error, and the book. -/
abbrev Written (α : Type) : Type := Except ProviderError α × ReservationBook

namespace ReservationBook

variable (crypto : ProviderCrypto) (book : ReservationBook)

def observeTime (now : UnixMillis) : Except ProviderError ReservationBook := do
  match book.lastObservedTime with
  | some previous =>
    require (¬now < previous) (.clockRegression previous now)
    return { book with lastObservedTime := some now }
  | none => return { book with lastObservedTime := some now }

/-- Observe the time durably, then run one write. -/
def timedWrite {α : Type} (now : UnixMillis)
    (write : ReservationBook → Except ProviderError (Written α)) : Written α :=
  match book.observeTime now with
  | .error error => (.error error, book)
  | .ok observed =>
    match write observed with
    | .error error => (.error error, observed)
    | .ok result => result

/-! ## Writing rows -/

def appendAudit (at' : UnixMillis) (event : StoredAuditEvent) :
    Except ProviderError ReservationBook := do
  let sequence ← okOr (checkedAdd 64 book.auditSequence 1) .auditSequenceOverflow
  return { book with
    auditSequence := sequence
    audit := book.audit.insert sequence ⟨sequence, at', event⟩ }

def advanceAllocationRevision : Except ProviderError ReservationBook := do
  let next ← okOr (checkedAdd 64 book.allocationRevision 1) .allocationRevisionOverflow
  return { book with allocationRevision := next }

def allocate (outpoints : List OutPoint) (allocation : StoredAllocation) : ReservationBook :=
  { book with allocations := book.allocations.fill outpoints allocation }

def deallocate (outpoints : List OutPoint) : ReservationBook :=
  { book with allocations := book.allocations.eraseAll outpoints }

def putReservation (record : StoredReservation) : ReservationBook :=
  { book with reservations := book.reservations.insert record.id record }

/-! ## Reading rows -/

def readReservation (reservationId : ReservationId) :
    Except ProviderError (Option StoredReservation) :=
  match book.reservations[reservationId]? with
  | none => .ok none
  | some record => do
      require (record.id = reservationId) (corrupt .reservationKeyMismatch)
      record.validate crypto
      return some record

def requireReservation (reservationId : ReservationId) (error : ProviderError) :
    Except ProviderError StoredReservation := do
  let record ← book.readReservation crypto reservationId
  okOr record error

def requireAuthorizedReservation (reservationId : ReservationId)
    (owner : OwnerId) : Except ProviderError StoredReservation := do
  let record ← book.requireReservation crypto reservationId (.reservationNotFound reservationId)
  require (record.owner = owner) (.reservationOwnerMismatch reservationId)
  return record

def readRequestBinding (owner : OwnerId) (key : IdempotencyKey) : Option StoredRequestBinding :=
  book.requestKeys[requestKey owner key]?

def checkReservedAllocations (record : StoredReservation) : Except ProviderError Unit :=
  record.outpoints.forM fun outpoint => do
    let allocation ← okOr book.allocations[outpoint]?
      (corrupt (.reservedOutpointUnallocated outpoint))
    require (allocation = .reserved record.id)
      (corrupt (.reservedOutpointAllocatedElsewhere outpoint))

def ensureCommittedAllocations (record : StoredReservation)
    (commitment : SigningCommitment) : Except ProviderError Unit :=
  record.outpoints.forM fun outpoint => do
    let allocation ← okOr book.allocations[outpoint]?
      (corrupt (.committedOutpointUnallocated outpoint))
    require (allocation = .committed record.id commitment)
      (corrupt (.committedOutpointAllocatedElsewhere outpoint))

/-! ## Leaving the reserved state -/

def removeExpiration (record : StoredReservation) : Except ProviderError ReservationBook := do
  let key := expirationKey record.acceptBefore record.id
  require (book.expirations[key]? ≠ none) (corrupt .missingExpiration)
  return { book with expirations := book.expirations.erase key }

def removeLiveQuoteIndex (record : StoredReservation) : Except ProviderError ReservationBook := do
  let key := liveQuoteKey record.acceptBefore record.owner record.id
  let removed := book.liveQuotesByOwner[key]?
  require (¬(record.quote ≠ none ∧ removed = none)) (corrupt .missingLiveQuote)
  require (¬(record.quote = none ∧ removed ≠ none)) (corrupt .unexpectedLiveQuote)
  return { book with liveQuotesByOwner := book.liveQuotesByOwner.erase key }

def releaseReserved (record : StoredReservation) (reason : ReleaseReason)
    (at' : UnixMillis) : Except ProviderError ReservationBook := do
  require (record.state = .reserved) (.pointOfNoReturn record.id)
  book.checkReservedAllocations record
  let book ← (book.deallocate record.outpoints).advanceAllocationRevision
  let book ← book.removeExpiration record
  let book ← book.removeLiveQuoteIndex record
  (book.putReservation (record.release reason at')).appendAudit at'
    (.reservationReleased record.id reason)

def releaseReason (record : StoredReservation) (now : UnixMillis)
    (reason : ReleaseReason) : ReleaseReason :=
  if record.acceptBefore ≤ now then .expired else reason

/-! ## Expiry and replay -/

def maxExpirationBatch : ℕ := 256

def dueExpirations (now : UnixMillis) (limit : ℕ) : List ExpirationKey :=
  ((book.expirations.toList.map Prod.fst).takeWhile fun key => (ofLex key).1 ≤ now).take limit

def expireOne (now : UnixMillis) (book : ReservationBook) (key : ExpirationKey) :
    Except ProviderError ReservationBook := do
  let record ← book.requireReservation crypto (ofLex key).2 (corrupt .missingReservation)
  require (record.acceptBefore = (ofLex key).1) (corrupt .expirationDisagrees)
  require (record.state = .reserved) (corrupt .expirationOfTerminal)
  require (record.acceptBefore ≤ now) (corrupt .expirationDisagrees)
  book.releaseReserved record .expired now

def expireDueInWrite (now : UnixMillis) (limit : ℕ) :
    Except ProviderError (List ReservationId × ReservationBook) := do
  let due := book.dueExpirations now limit
  let book ← due.foldlM (expireOne crypto now) book
  return (due.map fun key => (ofLex key).2, book)

/-- The reservation of a request binding, released first when it is due. -/
def replayBindingInWrite (binding : StoredRequestBinding) (now : UnixMillis) :
    Except ProviderError (StoredReservation × ReservationBook) := do
  let record ← book.requireReservation crypto binding.reservationId (corrupt .missingReservation)
  require (record.id = binding.reservationId ∧
    record.semanticRequestDigest = binding.semanticRequestDigest ∧
    record.requestDigest = binding.requestDigest) (corrupt .bindingDisagrees)
  if record.state = .reserved ∧ record.acceptBefore ≤ now then do
    let book ← book.releaseReserved record .expired now
    return (record.release .expired now, book)
  else
    return (record, book)

def replayRequest (owner : OwnerId) (key : IdempotencyKey)
    (requestDigest : QuoteRequestDigest) (binding : StoredRequestBinding) (now : UnixMillis) :
    Except ProviderError (FirmQuoteOutcome × ReservationBook) := do
  require (binding.semanticRequestDigest = requestDigest) (.idempotencyConflict owner key)
  let (record, book) ← book.replayBindingInWrite crypto binding now
  let outcome ← record.toFirmQuoteOutcome crypto book.identity false
  return (outcome, book)

def countLiveQuote (owner : OwnerId) (policy : QuoteEnginePolicy)
    (now : UnixMillis) (counts : ℕ × ℕ) (key : LiveQuoteKey) : Except ProviderError (ℕ × ℕ) := do
  require (¬(ofLex key).1 ≤ now) (corrupt .invalidLiveQuote)
  let globalLive ← okOr (checkedAdd 64 counts.1 1) .liveQuoteCountOverflow
  let ownerLive ← if (ofLex (ofLex key).2).1 = owner then
      okOr (checkedAdd 64 counts.2 1) .liveQuoteCountOverflow
    else .ok counts.2
  require (¬((ofLex (ofLex key).2).1 = owner ∧ policy.maximumLiveQuotesPerOwner ≤ ownerLive))
    (.ownerLiveQuoteLimit owner policy.maximumLiveQuotesPerOwner)
  require (¬policy.maximumLiveQuotesGlobal ≤ globalLive)
    (.globalLiveQuoteLimit policy.maximumLiveQuotesGlobal)
  return (globalLive, ownerLive)

def enforceLiveQuoteLimits (owner : OwnerId) (policy : QuoteEnginePolicy)
    (now : UnixMillis) : Except ProviderError Unit :=
  match checkedAdd 64 now 1 with
  | none => .ok ()
  | some firstDeadline => do
      let live := (book.liveQuotesByOwner.toList.map Prod.fst).filter fun key =>
        liveQuoteKey firstDeadline 0 0 ≤ key
      let _ ← live.foldlM (countLiveQuote owner policy now) (0, 0)

def isQuotaError : ProviderError → Bool
  | .ownerLiveQuoteLimit _ _ | .globalLiveQuoteLimit _ => true
  | _ => false

/-- Go on within the quota; a full quota is reported after committing. -/
def withinQuota {α : Type} (owner : OwnerId) (policy : QuoteEnginePolicy)
    (now : UnixMillis) (write : Except ProviderError (Written α)) :
    Except ProviderError (Written α) :=
  match book.enforceLiveQuoteLimits owner policy now with
  | .ok () => write
  | .error error =>
    if isQuotaError error then .ok (.error error, book) else .error error

/-! ## Inventory -/

structure InventoryView where
  item : StoredInventoryItem
  state : InventoryState
deriving DecidableEq

def firstDuplicate : List OutPoint → List OutPoint → Option OutPoint
  | _, [] => none
  | seen, outpoint :: rest =>
    if outpoint ∈ seen then some outpoint
    else firstDuplicate (outpoint :: seen) rest

def pendingInventory (items : List InventoryItem) :
    Except ProviderError (List StoredInventoryItem) :=
  items.foldlM (fun pending item =>
    match book.inventory[item.val.outpoint]? with
    | some existing => do
        require (existing = item.val) (.inventoryMetadataConflict item.val.outpoint)
        return pending
    | none => return pending ++ [item.val]) []

def importItem (now : UnixMillis) (book : ReservationBook)
    (item : StoredInventoryItem) : Except ProviderError ReservationBook :=
  { book with inventory := book.inventory.insert item.outpoint item }.appendAudit
    now (.inventoryImported item.outpoint)

/-- Add one complete wallet discovery set without changing existing records. -/
def importInventoryBatch (items : List InventoryItem) (now : UnixMillis) : Written ℕ :=
  match firstDuplicate [] (items.map fun item => item.val.outpoint) with
  | some outpoint => (.error (.duplicateInventoryOutpoint outpoint), book)
  | none => book.timedWrite now fun book => do
      let pending ← book.pendingInventory items
      let book ← pending.foldlM (importItem now) book
      return (.ok pending.length, book)

def allocationState (outpoint : OutPoint) : InventoryState :=
  match book.allocations[outpoint]? with
  | some allocation => allocation.toView
  | none => .available

def inventoryStateFor (outpoints : List OutPoint) :
    Except ProviderError (List InventoryView × ℕ) := do
  require (outpoints.Pairwise (· < ·)) (corrupt .lookupNotSorted)
  let views ← outpoints.mapM fun outpoint => do
    let item ← okOr book.inventory[outpoint]? (corrupt (.publishedOutputMissing outpoint))
    require item.Valid (corrupt .invalidInventory)
    require (item.outpoint = outpoint) (corrupt (.inventoryKeyMismatch outpoint))
    return (⟨item, book.allocationState outpoint⟩ : InventoryView)
  return (views, book.allocationRevision)

/-! ## Quotes -/

/-- Replay an exact request or check the quota before pricing.  The expiry sweep
is kept even when the quota is full. -/
def preflightFirmQuote (owner : OwnerId) (key : IdempotencyKey)
    (requestDigest : QuoteRequestDigest) (policy : QuoteEnginePolicy) (now : UnixMillis) :
    Written (Option FirmQuoteOutcome) :=
  book.timedWrite now fun book =>
    match book.readRequestBinding owner key with
    | some binding => do
        let (outcome, book) ← book.replayRequest crypto owner key requestDigest binding now
        return (.ok (some outcome), book)
    | none => do
        let (_, book) ← book.expireDueInWrite crypto now maxExpirationBatch
        book.withinQuota owner policy now (.ok (.ok none, book))

def replayFirmQuote (owner : OwnerId) (key : IdempotencyKey)
    (requestDigest : QuoteRequestDigest) (now : UnixMillis) : Written (Option FirmQuoteOutcome) :=
  book.timedWrite now fun book =>
    match book.readRequestBinding owner key with
    | none => .ok (.ok none, book)
    | some binding => do
        let (outcome, book) ← book.replayRequest crypto owner key requestDigest binding now
        return (.ok (some outcome), book)

def planOutpoints (outpoints : List OutPoint) : Except ProviderError (List OutPoint) := do
  require (¬(outpoints = [] ∨ maxReservationInputs < outpoints.length))
    (corrupt .invalidReservationPlan)
  let sorted := outpoints.insertionSort (· ≤ ·)
  require sorted.Nodup (corrupt .invalidReservationPlan)
  return sorted

def newReservation (owner : OwnerId) (key : IdempotencyKey)
    (semanticRequestDigest : QuoteRequestDigest) (draft : FirmQuoteDraft)
    (feePolicy : StoredFeePolicy) (now acceptBefore : UnixMillis)
    (outpoints : List OutPoint) : StoredReservation :=
  let reservationId := crypto.deriveReservationId owner key
  let quote := finalizeQuote crypto book.identity owner key semanticRequestDigest
    reservationId draft now acceptBefore feePolicy
  { id := reservationId
    owner
    idempotencyKey := key
    semanticRequestDigest
    requestDigest := crypto.requestFingerprint ⟨book.identity, owner, key,
      semanticRequestDigest, quote.commitment, outpoints, acceptBefore, feePolicy⟩
    quoteCommitment := quote.commitment
    quote := some (.fromDomain quote draft)
    outpoints
    createdAt := now
    acceptBefore
    feePolicy
    state := .reserved }

def checkSelected (draft : FirmQuoteDraft) : Except ProviderError Unit :=
  draft.selectedOutpoints.forM fun outpoint => do
    let item ← okOr book.inventory[outpoint]? (.unknownInventory outpoint)
    let quotedInput ← okOr (draft.contribution.inputs.find? fun input =>
      input.outpoint = outpoint) (.firmQuoteInventoryMismatch outpoint)
    require (item.asset = draft.selectedAsset ∧ item.binding = quotedInput.inventoryBinding)
      (.firmQuoteInventoryMismatch outpoint)
    match book.allocations[outpoint]? with
    | some allocation =>
      .error (.outpointUnavailable outpoint allocation.toView)
    | none => .ok ()

def addQuotedAmount (quote : StoredFirmQuote) (total : ℕ)
    (input : QuotedProviderInput) : Except ProviderError ℕ := do
  let item ← okOr book.inventory[input.outpoint]? (.unknownInventory input.outpoint)
  require item.Valid (corrupt .invalidInventory)
  require (item.asset = quote.selectedAsset ∧ item.binding = input.inventoryBinding ∧
    crypto.recomputeInventoryBinding item input.witnessUtxo =
      input.inventoryBinding) (.firmQuoteInventoryMismatch input.outpoint)
  okOr (checkedAdd 64 total item.amount) .firmQuoteDraftInvalid

/-- Validate the exact durable representation before exposing a quote. -/
def checkNewReservation (record : StoredReservation) : Except ProviderError FirmQuote := do
  record.validate crypto
  let stored ← okOr record.quote .firmQuoteDraftInvalid
  let quote ← stored.toDomain crypto book.identity record
  let selected ← quote.contribution.inputs.foldlM (book.addQuotedAmount crypto stored) 0
  require (selected = stored.selectedAmount) .firmQuoteDraftInvalid
  return quote

def persistNewReservation (record : StoredReservation) : Except ProviderError ReservationBook := do
  let book := book.putReservation record
  let book := { book with
    requestKeys := book.requestKeys.insert (requestKey record.owner record.idempotencyKey)
      ⟨record.id, record.semanticRequestDigest, record.requestDigest⟩ }
  let book ← (book.allocate record.outpoints (.reserved record.id)).advanceAllocationRevision
  let book := { book with
    expirations := book.expirations.insert (expirationKey record.acceptBefore record.id) ()
    liveQuotesByOwner := book.liveQuotesByOwner.insert
      (liveQuoteKey record.acceptBefore record.owner record.id) () }
  book.appendAudit record.createdAt (.reservationCreated record.id record.outpoints)

def reserveInWrite (owner : OwnerId) (key : IdempotencyKey)
    (semanticRequestDigest : QuoteRequestDigest) (draft : FirmQuoteDraft)
    (policy : QuoteEnginePolicy) (now : UnixMillis) :
    Except ProviderError (Written FirmQuoteOutcome) := do
  let reservationId := crypto.deriveReservationId owner key
  require (book.allocationRevision = draft.snapshot.allocationRevision) .eligibleInventoryChanged
  let acceptBefore ← okOr (checkedAdd 64 now policy.quoteLifetimeMillis) .quoteDeadlineOverflow
  require (quoteRequestDigest crypto book.identity owner key draft.request =
    semanticRequestDigest) .firmQuoteRequestDigestMismatch
  let existing ← book.readReservation crypto reservationId
  require (existing = none) (.reservationIdCollision reservationId)
  book.checkSelected draft
  book.withinQuota owner policy now do
    let outpoints ← planOutpoints draft.selectedOutpoints
    let record := book.newReservation crypto owner key semanticRequestDigest draft
      policy.feePolicy.val now acceptBefore outpoints
    let quote ← book.checkNewReservation crypto record
    let book ← book.persistNewReservation record
    let view ← record.toView crypto
    return (.ok ⟨quote, view, true⟩, book)

def reserveFirmQuoteFromSnapshot (owner : OwnerId) (key : IdempotencyKey)
    (semanticRequestDigest : QuoteRequestDigest) (draft : FirmQuoteDraft)
    (policy : QuoteEnginePolicy) (snapshotObservedAt : UnixMillis)
    (maximumSnapshotAgeMillis : ℕ) (now : UnixMillis) : Written FirmQuoteOutcome :=
  if policy.feePolicy.val.policyAsset ≠ book.identity.policyAsset then
    (.error (.wrongPolicyAsset book.identity.policyAsset policy.feePolicy.val.policyAsset), book)
  else
    book.timedWrite now fun book =>
      match book.readRequestBinding owner key with
      | some binding => do
          let (outcome, book) ←
            book.replayRequest crypto owner key semanticRequestDigest binding now
          return (.ok outcome, book)
      | none =>
        if now < snapshotObservedAt then
          .ok (.error (.inventorySnapshotObservedInFuture snapshotObservedAt now), book)
        else if maximumSnapshotAgeMillis ≤ now - snapshotObservedAt then
          .ok (.error (.inventorySnapshotStale snapshotObservedAt now
            maximumSnapshotAgeMillis), book)
        else
          book.reserveInWrite crypto owner key semanticRequestDigest draft policy now

/-! ## Releasing -/

structure ReservationAccess where
  reservationId : ReservationId
  owner : OwnerId
deriving DecidableEq

def cancel (access : ReservationAccess) (now : UnixMillis) : Written Bool :=
  book.timedWrite now fun book => do
    let record ← book.requireAuthorizedReservation crypto access.reservationId access.owner
    match record.state with
    | .reserved => do
        let book ← book.releaseReserved record (releaseReason record now .clientCancelled) now
        return (.ok true, book)
    | .released .clientCancelled _ => return (.ok false, book)
    | .released _ _ => .error (.reservationAlreadyReleased record.id)
    | .committed _ | .signed _ _ => .error (.pointOfNoReturn record.id)

def rejectUncommitted (reservationId : ReservationId) (now : UnixMillis) : Written Bool :=
  book.timedWrite now fun book => do
    let record ← book.requireReservation crypto reservationId (.reservationNotFound reservationId)
    match record.state with
    | .reserved => do
        let book ← book.releaseReserved record (releaseReason record now .providerRejected) now
        return (.ok true, book)
    | .released _ _ => return (.ok false, book)
    | .committed _ | .signed _ _ => .error (.pointOfNoReturn reservationId)

def expireDue (now : UnixMillis) (limit : ℕ) : Written (List ReservationId) :=
  if limit = 0 then (.ok [], book)
  else
    book.timedWrite now fun book => do
      let (expired, book) ← book.expireDueInWrite crypto now (min limit maxExpirationBatch)
      return (.ok expired, book)

/-! ## Committing -/

inductive CommitOutcome where
  | newlyCommitted (job : SigningJob)
  | alreadyCommitted (job : SigningJob)
  | alreadySigned (artifact : SignedArtifact)
deriving DecidableEq

def signingTarget (outpoint : OutPoint) : Except ProviderError StoredSigningTarget := do
  let item ← okOr book.inventory[outpoint]? (corrupt (.reservedOutpointMissing outpoint))
  require item.Valid (corrupt .invalidInventory)
  return .fromInventory item

def signingTargetsForReservation (record : StoredReservation) :
    Except ProviderError (List StoredSigningTarget) :=
  record.outpoints.mapM book.signingTarget

def requireSameIntent (record : StoredReservation) (intent : StoredSigningIntent)
    (preSignPayload : Bytes) (fee : StoredTransactionFee) :
    Except ProviderError SigningCommitment := do
  let proposed := signingCommitment crypto record preSignPayload fee intent.targets
  require (intent.commitment = proposed ∧ intent.preSignPayload = preSignPayload ∧ intent.fee = fee)
    (.differentSigningIntent record.id)
  return proposed

def commitReserved (record : StoredReservation) (preSignPayload : Bytes)
    (fee : StoredTransactionFee) (now : UnixMillis) :
    Except ProviderError (SigningJob × ReservationBook) := do
  let policy ← record.feePolicy.toDomain
  (policy.validate fee).mapError .feePolicy
  let targets ← book.signingTargetsForReservation record
  let commitment := signingCommitment crypto record preSignPayload fee targets
  book.checkReservedAllocations record
  let intent : StoredSigningIntent := ⟨commitment, preSignPayload, fee, now, targets⟩
  let book ← (book.allocate record.outpoints
    (.committed record.id commitment)).advanceAllocationRevision
  let book ← book.removeExpiration record
  let book ← book.removeLiveQuoteIndex record
  let book ← (book.putReservation (record.commit intent)).appendAudit now
    (.signingCommitted record.id commitment)
  let job ← intent.toJob record.id
  return (job, book)

/-- Bind the reserved inputs to exact bytes before any signer is invoked. -/
def commitBeforeSignInner (access : ReservationAccess)
    (expectedQuoteCommitment : Option QuoteCommitment) (preSignPayload : Bytes)
    (fee : TransactionFee) (now : UnixMillis) : Written CommitOutcome :=
  match validateSettlementBytes preSignPayload with
  | .error error => (.error error, book)
  | .ok () =>
    book.timedWrite now fun book => do
      let record ← book.requireAuthorizedReservation crypto access.reservationId access.owner
      require (∀ expected ∈ expectedQuoteCommitment,
        ¬(record.quote = none ∨ record.quoteCommitment ≠ expected))
        (.validatedIntentBindingMismatch record.id)
      match record.state with
      | .committed intent => do
          let _ ← requireSameIntent crypto record intent preSignPayload fee.val
          let job ← intent.toJob record.id
          return (.ok (.alreadyCommitted job), book)
      | .signed intent artifact => do
          let proposed ← requireSameIntent crypto record intent preSignPayload fee.val
          let artifact ← artifact.toDomain crypto record.id proposed
          return (.ok (.alreadySigned artifact), book)
      | .released _ _ => .error (.reservationAlreadyReleased record.id)
      | .reserved =>
        if record.acceptBefore ≤ now then do
          let book ← book.releaseReserved record .expired now
          return (.error (.reservationDeadlineElapsed record.acceptBefore now), book)
        else do
          let (job, book) ← book.commitReserved crypto record preSignPayload fee.val now
          return (.ok (.newlyCommitted job), book)

def commitValidatedBeforeSign (expectedProvider : ProviderIdentity)
    (access : ReservationAccess) (expectedQuoteCommitment : QuoteCommitment)
    (preSignPayload : Bytes) (fee : TransactionFee) (now : UnixMillis) : Written CommitOutcome :=
  if book.identity ≠ expectedProvider then
    (.error (.validatedIntentBindingMismatch access.reservationId), book)
  else
    book.commitBeforeSignInner crypto access (some expectedQuoteCommitment) preSignPayload fee now

/-! ## Signing -/

/-- Exact durable state for one already-committed signing job. -/
inductive ExactSigningState where
  | pending (job : SigningJob)
  | signed (artifact : SignedArtifact)
deriving DecidableEq

structure SignedOutcome where
  artifact : SignedArtifact
  recorded : Bool
deriving DecidableEq

def ensureExactSigningJob (durable expected : SigningJob) : Except ProviderError Unit :=
  require (durable = expected) (.signingJobBindingMismatch expected.reservationId)

def checkPermanentAllocations (record : StoredReservation) : Except ProviderError Unit :=
  match record.state with
  | .committed intent | .signed intent _ =>
    book.ensureCommittedAllocations record intent.commitment
  | .reserved | .released _ _ => .ok ()

/-- Resolve an exact durable job before invoking a signer. -/
def signingStateFor (expectedJob : SigningJob) : Except ProviderError ExactSigningState := do
  let record ← book.requireReservation crypto expectedJob.reservationId
    (.reservationNotFound expectedJob.reservationId)
  book.checkPermanentAllocations record
  match record.state with
  | .committed intent => do
      let job ← intent.toJob record.id
      ensureExactSigningJob job expectedJob
      return .pending job
  | .signed intent artifact => do
      let job ← intent.toJob record.id
      ensureExactSigningJob job expectedJob
      let artifact ← artifact.toDomain crypto record.id job.commitment
      return .signed artifact
  | .reserved => .error (.signingIntentNotCommitted expectedJob.reservationId)
  | .released _ _ =>
    .error (.reservationAlreadyReleased expectedJob.reservationId)

def replaySignedArtifact (expected : SignedArtifact) : Except ProviderError SignedOutcome := do
  let record ← book.requireReservation crypto expected.reservationId
    (.reservationNotFound expected.reservationId)
  match record.state with
  | .signed intent artifact => do
      book.ensureCommittedAllocations record intent.commitment
      let actual ← artifact.toDomain crypto record.id intent.commitment
      require (actual = expected) (.signedArtifactBindingMismatch expected.reservationId)
      return ⟨actual, false⟩
  | .released _ _ => .error (.reservationAlreadyReleased expected.reservationId)
  | .reserved | .committed _ =>
    .error (.signingIntentNotCommitted expected.reservationId)

def ensureExpectedJob (intent : StoredSigningIntent) (record : StoredReservation)
    (expectedJob : Option SigningJob) : Except ProviderError Unit :=
  match expectedJob with
  | none => .ok ()
  | some expectedJob => do
      let job ← intent.toJob record.id
      ensureExactSigningJob job expectedJob

def recordSignedInWrite (reservationId : ReservationId)
    (expectedCommitment : SigningCommitment) (expectedJob : Option SigningJob)
    (signedBytes : Bytes) (replayWinnerOnConflict : Bool) (now : UnixMillis) :
    Except ProviderError (Written SignedOutcome) := do
  let record ← book.requireReservation crypto reservationId (.reservationNotFound reservationId)
  book.checkPermanentAllocations record
  match record.state with
  | .committed intent => do
      ensureExpectedJob intent record expectedJob
      require (intent.commitment = expectedCommitment)
        (.signingCommitmentMismatch reservationId intent.commitment expectedCommitment)
      let stored : StoredSignedArtifact :=
        ⟨crypto.signedArtifact expectedCommitment signedBytes, signedBytes, now⟩
      let artifact ← stored.toDomain crypto reservationId expectedCommitment
      let book ← (book.putReservation (record.sign intent stored)).appendAudit now
        (.signedArtifactStored reservationId stored.digest)
      return (.ok ⟨artifact, true⟩, book)
  | .signed intent artifact => do
      ensureExpectedJob intent record expectedJob
      require (intent.commitment = expectedCommitment)
        (.signingCommitmentMismatch reservationId intent.commitment expectedCommitment)
      require (¬(artifact.bytes ≠ signedBytes ∧ replayWinnerOnConflict = false))
        (.differentSignedArtifact reservationId)
      let artifact ← artifact.toDomain crypto reservationId expectedCommitment
      return (.ok ⟨artifact, false⟩, book)
  | .reserved => .error (.signingIntentNotCommitted reservationId)
  | .released _ _ => .error (.reservationAlreadyReleased reservationId)

/-- A concurrent winner is replayed before the clock is observed. -/
def recordSignedInner (reservationId : ReservationId)
    (expectedCommitment : SigningCommitment) (expectedJob : Option SigningJob)
    (signedBytes : Bytes) (replayWinnerOnConflict : Bool) (now : UnixMillis) :
    Written SignedOutcome :=
  let write := fun book : ReservationBook =>
    book.recordSignedInWrite crypto reservationId expectedCommitment expectedJob
      signedBytes replayWinnerOnConflict now
  match validateSettlementBytes signedBytes with
  | .error error => (.error error, book)
  | .ok () =>
    if replayWinnerOnConflict then
      match expectedJob with
      | none => (.error (corrupt .missingSigningJob), book)
      | some job =>
        match book.signingStateFor crypto job with
        | .error error => (.error error, book)
        | .ok (.signed artifact) =>
          (book.replaySignedArtifact crypto artifact, book)
        | .ok (.pending _) => book.timedWrite now write
    else book.timedWrite now write

/-- Persist one finalized settlement, or return the one which won the race. -/
def recordFinalizedPset (expectedJob : SigningJob) (candidate : Bytes)
    (now : UnixMillis) : Written SignedOutcome :=
  book.recordSignedInner crypto expectedJob.reservationId expectedJob.commitment
    (some expectedJob) candidate true now

inductive RecoveryAction where
  | signCommittedExact (job : SigningJob)
  | replaySignedExact (artifact : SignedArtifact)
deriving DecidableEq

def recoveryAction (record : StoredReservation) : Except ProviderError (List RecoveryAction) := do
  record.validate crypto
  match record.state with
  | .committed intent => do
      let job ← intent.toJob record.id
      return [.signCommittedExact job]
  | .signed intent artifact => do
      let artifact ← artifact.toDomain crypto record.id intent.commitment
      return [.replaySignedExact artifact]
  | .reserved | .released _ _ => return []

def recoveryActions : Except ProviderError (List RecoveryAction) := do
  let actions ← book.reservations.toList.mapM fun row => recoveryAction crypto row.2
  return actions.flatten

end ReservationBook

end DeadcatNode
