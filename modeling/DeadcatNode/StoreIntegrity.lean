import DeadcatNode.ReservationBook

/-!
# Opening the reservation book

When a database is opened all of its tables are checked against each other and
against the audit log.  The checks are translated here as they are run.
-/

namespace DeadcatNode

open Checked

/-! ## Times -/

def validateCommitTime (record : StoredReservation)
    (committedAt highWaterMark : UnixMillis) : Except ProviderError Unit :=
  require (¬(committedAt < record.createdAt ∨ record.acceptBefore ≤ committedAt ∨
    highWaterMark < committedAt)) (corrupt (.reservationTime record.id))

def validateReservationTimes (record : StoredReservation)
    (lastObservedTime : Option UnixMillis) : Except ProviderError Unit := do
  let highWaterMark ← okOr lastObservedTime (corrupt .missingHighWaterMark)
  require (¬highWaterMark < record.createdAt) (corrupt (.reservationTime record.id))
  match record.state with
  | .reserved => .ok ()
  | .released reason at' => do
      require (¬(at' < record.createdAt ∨ highWaterMark < at'))
        (corrupt (.reservationTime record.id))
      -- Only an expiry may be at or after the deadline, and it must be.
      require (reason = .expired ↔ record.acceptBefore ≤ at') (corrupt (.reservationTime record.id))
  | .committed intent =>
    validateCommitTime record intent.committedAt highWaterMark
  | .signed intent artifact => do
      validateCommitTime record intent.committedAt highWaterMark
      require (¬(artifact.signedAt < intent.committedAt ∨
        highWaterMark < artifact.signedAt)) (corrupt (.reservationTime record.id))

/-! ## The audit log -/

/-- What an audit event is about.  Every subject has one event. -/
inductive AuditSubject where
  | imported (outpoint : OutPoint)
  | created (reservationId : ReservationId)
  | released (reservationId : ReservationId)
  | committed (reservationId : ReservationId)
  | signed (reservationId : ReservationId)
deriving DecidableEq

def StoredAuditEvent.subject : StoredAuditEvent → AuditSubject
  | .inventoryImported outpoint => .imported outpoint
  | .reservationCreated reservationId _ => .created reservationId
  | .reservationReleased reservationId _ => .released reservationId
  | .signingCommitted reservationId _ => .committed reservationId
  | .signedArtifactStored reservationId _ => .signed reservationId

def StoredReservationState.intent? : StoredReservationState → Option StoredSigningIntent
  | .committed intent | .signed intent _ => some intent
  | .reserved | .released _ _ => none

def StoredReservationState.artifact? : StoredReservationState → Option StoredSignedArtifact
  | .signed _ artifact => some artifact
  | .reserved | .released _ _ | .committed _ => none

structure AuditScan where
  previousSequence : ℕ := 0
  previousTime : Option UnixMillis := none
  seen : List AuditSubject := []

namespace ReservationBook

variable (crypto : ProviderCrypto) (book : ReservationBook)

/-- The record an audit event is about is as the event says. -/
def AuditMatches (entry : StoredAuditEntry) : Prop :=
  match entry.event with
  | .inventoryImported outpoint => book.inventory[outpoint]? ≠ none
  | .reservationCreated reservationId outpoints =>
    ∃ record ∈ book.reservations[reservationId]?,
      entry.at' = record.createdAt ∧ outpoints = record.outpoints
  | .reservationReleased reservationId reason =>
    ∃ record ∈ book.reservations[reservationId]?, record.state = .released reason entry.at'
  | .signingCommitted reservationId commitment =>
    ∃ record ∈ book.reservations[reservationId]?, ∃ intent ∈ record.state.intent?,
        intent.commitment = commitment ∧ intent.committedAt = entry.at'
  | .signedArtifactStored reservationId digest =>
    ∃ record ∈ book.reservations[reservationId]?,
      ∃ artifact ∈ record.state.artifact?, artifact.digest = digest ∧ artifact.signedAt = entry.at'

instance (entry : StoredAuditEntry) : Decidable (book.AuditMatches entry) := by
  unfold AuditMatches
  cases entry.event <;> infer_instance

def scanEntry (scan : AuditScan) (row : ℕ × StoredAuditEntry) : Except ProviderError AuditScan := do
  let expected ← okOr (checkedAdd 64 scan.previousSequence 1) .auditSequenceOverflow
  require (row.1 = expected) (corrupt .auditSequence)
  require (row.2.sequence = row.1) (corrupt .auditSequence)
  require (∀ previous ∈ scan.previousTime, ¬row.2.at' < previous) (corrupt .auditTime)
  let highWaterMark ← okOr book.lastObservedTime (corrupt .missingHighWaterMark)
  require (¬highWaterMark < row.2.at') (corrupt .auditTime)
  require (book.AuditMatches row.2 ∧ row.2.event.subject ∉ scan.seen) (corrupt .auditEvent)
  return ⟨row.1, some row.2.at', row.2.event.subject :: scan.seen⟩

/-- The events a reservation must have and must not have. -/
def HasAuditShape (record : StoredReservation) (seen : List AuditSubject) : Prop :=
  match record.state with
  | .reserved => .released record.id ∉ seen ∧ .committed record.id ∉ seen ∧ .signed record.id ∉ seen
  | .released _ _ => .released record.id ∈ seen ∧ .committed record.id ∉ seen ∧
      .signed record.id ∉ seen
  | .committed _ => .released record.id ∉ seen ∧ .committed record.id ∈ seen ∧
      .signed record.id ∉ seen
  | .signed _ _ => .released record.id ∉ seen ∧ .committed record.id ∈ seen ∧
      .signed record.id ∈ seen

instance (record : StoredReservation) (seen : List AuditSubject) :
    Decidable (HasAuditShape record seen) := by
  unfold HasAuditShape
  cases record.state <;> infer_instance

def validateAuditIntegrity : Except ProviderError Unit := do
  let scan ← book.audit.toList.foldlM book.scanEntry {}
  require (scan.previousSequence = book.auditSequence) (corrupt .auditSequence)
  book.inventory.toList.forM fun row => require (.imported row.1 ∈ scan.seen) (corrupt .auditShape)
  book.reservations.toList.forM fun row => do
    require (.created row.1 ∈ scan.seen) (corrupt .auditShape)
    require (HasAuditShape row.2 scan.seen) (corrupt .auditShape)

/-! ## The tables -/

def validateInventoryRow (row : OutPoint × StoredInventoryItem) : Except ProviderError Unit := do
  require row.2.Valid (corrupt .invalidInventory)
  require (row.1 = row.2.outpoint) (corrupt (.inventoryKeyMismatch row.2.outpoint))

def addDurableAmount (quote : StoredFirmQuote) (total : ℕ)
    (input : QuotedProviderInput) : Except ProviderError ℕ := do
  let item ← okOr book.inventory[input.outpoint]? (corrupt .quoteInventory)
  require (item.asset = quote.selectedAsset ∧
    item.binding = input.inventoryBinding) (corrupt .quoteInventory)
  require item.Valid (corrupt .invalidInventory)
  require (crypto.recomputeInventoryBinding item input.witnessUtxo =
    input.inventoryBinding) (corrupt .quoteInventory)
  okOr (checkedAdd 64 total item.amount) (corrupt .quoteInventory)

def validateStoredQuote (record : StoredReservation) (quote : StoredFirmQuote) :
    Except ProviderError Unit := do
  let domain ← quote.toDomain crypto book.identity record
  let selected ← domain.contribution.inputs.foldlM (book.addDurableAmount crypto quote) 0
  require (selected = quote.selectedAmount) (corrupt .quoteInventory)

def validateReservationRow (row : ReservationId × StoredReservation) :
    Except ProviderError Unit := do
  require (row.1 = row.2.id) (corrupt .reservationKeyMismatch)
  row.2.validate crypto
  require (row.2.feePolicy.policyAsset = book.identity.policyAsset)
    (corrupt (.wrongFeePolicyAsset row.2.id))
  require (row.2.requestDigest = storedRequestDigest crypto book.identity row.2)
    (corrupt (.requestDigest row.2.id))
  validateReservationTimes row.2 book.lastObservedTime
  match row.2.quote with
  | none => .ok ()
  | some quote => book.validateStoredQuote crypto row.2 quote

/-- The allocation of one outpoint of a reservation and, once it is committed,
the signing target at its position. -/
def validateOutpoint (record : StoredReservation) (position : OutPoint × ℕ) :
    Except ProviderError Unit := do
  let item ← okOr book.inventory[position.1]? (corrupt (.reservedOutpointMissing position.1))
  let allocation := book.allocations[position.1]?
  match record.state with
  | .reserved =>
    require (allocation = some (.reserved record.id)) (corrupt .allocationDisagrees)
  | .committed intent | .signed intent _ => do
      require (intent.targets[position.2]? = some (.fromInventory item)) (corrupt .signingTargets)
      require (allocation = some (.committed record.id intent.commitment))
        (corrupt .allocationDisagrees)
  | .released _ _ =>
    require (∀ other ∈ allocation, other.reservationId ≠ record.id) (corrupt .allocationDisagrees)

def validateDeadlineIndexes (record : StoredReservation) : Except ProviderError Unit :=
  let expiration := book.expirations[expirationKey record.acceptBefore record.id]?
  let liveQuote := book.liveQuotesByOwner[liveQuoteKey record.acceptBefore record.owner record.id]?
  if record.state = .reserved then do
    require (expiration ≠ none) (corrupt .missingExpiration)
    require (liveQuote ≠ none ↔ record.quote ≠ none) (corrupt (.indexDisagrees record.id))
  else do
    require (expiration = none) (corrupt .expirationOfTerminal)
    require (liveQuote = none) (corrupt .unexpectedLiveQuote)

def validateReservationIndexes (record : StoredReservation) : Except ProviderError Unit := do
  let binding ← okOr book.requestKeys[requestKey record.owner record.idempotencyKey]?
    (corrupt (.indexDisagrees record.id))
  require (binding.reservationId = record.id ∧
    binding.semanticRequestDigest = record.semanticRequestDigest ∧
    binding.requestDigest = record.requestDigest) (corrupt .bindingDisagrees)
  book.validateDeadlineIndexes record
  record.outpoints.zipIdx.forM (book.validateOutpoint record)

def validateBinding (row : RequestKey × StoredRequestBinding) : Except ProviderError Unit := do
  let record ← okOr book.reservations[row.2.reservationId]? (corrupt .missingReservation)
  require (row.1 = requestKey record.owner record.idempotencyKey ∧
    row.2.semanticRequestDigest = record.semanticRequestDigest ∧
    row.2.requestDigest = record.requestDigest) (corrupt .bindingDisagrees)

def AllocationAgrees (allocation : StoredAllocation) (record : StoredReservation) : Prop :=
  match allocation with
  | .reserved _ => record.state = .reserved
  | .committed _ commitment =>
    ∃ intent ∈ record.state.intent?, intent.commitment = commitment

instance (allocation : StoredAllocation) (record : StoredReservation) :
    Decidable (AllocationAgrees allocation record) := by
  unfold AllocationAgrees
  cases allocation <;> infer_instance

def validateAllocation (row : OutPoint × StoredAllocation) : Except ProviderError Unit := do
  let item ← okOr book.inventory[row.1]? (corrupt .allocationDisagrees)
  let record ← okOr book.reservations[row.2.reservationId]? (corrupt .missingReservation)
  require (item.outpoint ∈ record.outpoints) (corrupt .allocationDisagrees)
  require (AllocationAgrees row.2 record) (corrupt .allocationDisagrees)

def validateExpiration (key : ExpirationKey) : Except ProviderError Unit := do
  let record ← okOr book.reservations[(ofLex key).2]? (corrupt .missingReservation)
  require (record.state = .reserved ∧ record.acceptBefore = (ofLex key).1)
    (corrupt .expirationDisagrees)

def validateLiveQuote (key : LiveQuoteKey) : Except ProviderError Unit := do
  let record ← okOr book.reservations[(ofLex (ofLex key).2).2]? (corrupt .missingReservation)
  require ((ofLex key).1 = record.acceptBefore ∧
    (ofLex (ofLex key).2).1 = record.owner ∧ record.quote ≠ none ∧
    record.state = .reserved) (corrupt .invalidLiveQuote)

def validateStoreIntegrity : Except ProviderError Unit := do
  book.inventory.toList.forM validateInventoryRow
  book.reservations.toList.forM (book.validateReservationRow crypto)
  book.reservations.toList.forM fun row => book.validateReservationIndexes row.2
  book.requestKeys.toList.forM book.validateBinding
  book.allocations.toList.forM book.validateAllocation
  book.expirations.toList.forM fun row => book.validateExpiration row.1
  book.liveQuotesByOwner.toList.forM fun row => book.validateLiveQuote row.1
  book.validateAuditIntegrity

def reopen (identity : ProviderIdentity) : Except ProviderError ReservationBook := do
  require (book.identity = identity) (.providerIdentityMismatch book.identity identity)
  book.validateStoreIntegrity crypto
  return book

end ReservationBook

end DeadcatNode
