import DeadcatNode.ReservationIntegrity

/-!
# Runs of the reservation book

A run is a sequence of operations, each with the reading of its clock.  The
operation lock makes every operation atomic, so an interleaving of concurrent
callers is such a sequence.  A process may stop between the observation of the
time and the write, and the book may be closed and opened again at any point.
-/

namespace DeadcatNode

open Checked

namespace ReservationBook

/-! ## Operations -/

inductive Operation where
  | importInventoryBatch (items : List InventoryItem)
  | preflightFirmQuote (owner : OwnerId) (key : IdempotencyKey)
      (requestDigest : QuoteRequestDigest) (policy : QuoteEnginePolicy)
  | replayFirmQuote (owner : OwnerId) (key : IdempotencyKey) (requestDigest : QuoteRequestDigest)
  | reserveFirmQuoteFromSnapshot (owner : OwnerId) (key : IdempotencyKey)
      (semanticRequestDigest : QuoteRequestDigest) (draft : FirmQuoteDraft)
      (policy : QuoteEnginePolicy) (snapshotObservedAt : UnixMillis) (maximumSnapshotAgeMillis : ℕ)
  | cancel (access : ReservationAccess)
  | rejectUncommitted (reservationId : ReservationId)
  | expireDue (limit : ℕ)
  | commitBeforeSign (access : ReservationAccess) (preSignPayload : Bytes) (fee : TransactionFee)
  | commitValidatedBeforeSign (expectedProvider : ProviderIdentity)
      (access : ReservationAccess) (expectedQuoteCommitment : QuoteCommitment)
      (preSignPayload : Bytes) (fee : TransactionFee)
  | signingStateFor (expectedJob : SigningJob)
  | replaySignedArtifact (expected : SignedArtifact)
  | recordSigned (reservationId : ReservationId)
      (expectedCommitment : SigningCommitment) (signedBytes : Bytes)
  | recordFinalizedPset (expectedJob : SigningJob) (candidate : Bytes)
  | recoveryActions
  | interrupted
  | reopen (identity : ProviderIdentity)

def Operation.creates : Operation → Bool
  | .reserveFirmQuoteFromSnapshot .. => true
  | _ => false

def Operation.policy? : Operation → Option QuoteEnginePolicy
  | .preflightFirmQuote _ _ _ policy => some policy
  | .reserveFirmQuoteFromSnapshot _ _ _ _ policy _ _ => some policy
  | _ => none

inductive Answer where
  | imported (result : Except ProviderError ℕ)
  | replayed (result : Except ProviderError (Option FirmQuoteOutcome))
  | reserved (result : Except ProviderError FirmQuoteOutcome)
  | released (result : Except ProviderError Bool)
  | expired (result : Except ProviderError (List ReservationId))
  | committed (result : Except ProviderError CommitOutcome)
  | resolved (result : Except ProviderError ExactSigningState)
  | signed (result : Except ProviderError SignedOutcome)
  | recovered (result : Except ProviderError (List RecoveryAction))
  | opened (result : Except ProviderError Unit)
  | nothing

def answered {α : Type} (answer : Except ProviderError α → Answer)
    (written : Written α) : Answer × ReservationBook :=
  (answer written.1, written.2)

variable (crypto : ProviderCrypto)

def Operation.apply (now : UnixMillis) (book : ReservationBook) :
    Operation → Answer × ReservationBook
  | .importInventoryBatch items =>
    answered .imported (book.importInventoryBatch items now)
  | .preflightFirmQuote owner key requestDigest policy =>
    answered .replayed (book.preflightFirmQuote crypto owner key requestDigest policy now)
  | .replayFirmQuote owner key requestDigest =>
    answered .replayed (book.replayFirmQuote crypto owner key requestDigest now)
  | .reserveFirmQuoteFromSnapshot owner key digest draft policy observedAt maximumAge =>
    answered .reserved (book.reserveFirmQuoteFromSnapshot crypto owner key digest
      draft policy observedAt maximumAge now)
  | .cancel access => answered .released (book.cancel crypto access now)
  | .rejectUncommitted reservationId =>
    answered .released (book.rejectUncommitted crypto reservationId now)
  | .expireDue limit => answered .expired (book.expireDue crypto now limit)
  | .commitBeforeSign access preSignPayload fee =>
    answered .committed (book.commitBeforeSignInner crypto access none preSignPayload fee now)
  | .commitValidatedBeforeSign expectedProvider access expected preSignPayload fee =>
    answered .committed (book.commitValidatedBeforeSign crypto expectedProvider
      access expected preSignPayload fee now)
  | .signingStateFor expectedJob =>
    (.resolved (book.signingStateFor crypto expectedJob), book)
  | .replaySignedArtifact expected =>
    (.signed (book.replaySignedArtifact crypto expected), book)
  | .recordSigned reservationId expectedCommitment signedBytes =>
    answered .signed (book.recordSignedInner crypto reservationId
      expectedCommitment none signedBytes false now)
  | .recordFinalizedPset expectedJob candidate =>
    answered .signed (book.recordFinalizedPset crypto expectedJob candidate now)
  | .recoveryActions => (.recovered (book.recoveryActions crypto), book)
  | .interrupted =>
    match book.observeTime now with
    | .ok observed => (.nothing, observed)
    | .error _ => (.nothing, book)
  | .reopen identity =>
    (.opened ((book.reopen crypto identity).map fun _ => ()), book)

abbrev Step : Type := Operation × UnixMillis

def runStep (book : ReservationBook) (step : Step) : ReservationBook :=
  (step.1.apply crypto step.2 book).2

def run (book : ReservationBook) (steps : List Step) : ReservationBook :=
  steps.foldl (runStep crypto) book

def answers : ReservationBook → List Step → List Answer
  | _, [] => []
  | book, step :: rest =>
    (step.1.apply crypto step.2 book).1 :: answers (runStep crypto book step) rest

variable {crypto : ProviderCrypto} {book next : ReservationBook} {now : UnixMillis}

theorem run_append (steps later : List Step) :
    run crypto book (steps ++ later) = run crypto (run crypto book steps) later :=
  List.foldl_append

theorem apply_settling (operation : Operation) (hcreates : operation.creates = false) :
    TimedSettling crypto now book (operation.apply crypto now book).2 := by
  cases operation with
  | importInventoryBatch items => exact importInventoryBatch_settling items
  | preflightFirmQuote owner key digest policy =>
    exact preflightFirmQuote_settling owner key digest policy
  | replayFirmQuote owner key digest => exact replayFirmQuote_settling owner key digest
  | reserveFirmQuoteFromSnapshot owner key digest draft policy observedAt maximumAge =>
    cases hcreates
  | cancel access => exact cancel_settling access
  | rejectUncommitted reservationId => exact rejectUncommitted_settling reservationId
  | expireDue limit => exact expireDue_settling limit
  | commitBeforeSign access preSignPayload fee =>
    exact commitBeforeSignInner_settling access none preSignPayload fee
  | commitValidatedBeforeSign provider access expected preSignPayload fee =>
    exact commitValidatedBeforeSign_settling provider access expected preSignPayload fee
  | signingStateFor | replaySignedArtifact | recoveryActions | reopen => exact .inl rfl
  | recordSigned reservationId commitment bytes =>
    exact recordSignedInner_settling reservationId commitment none bytes false
  | recordFinalizedPset job candidate =>
    exact recordSignedInner_settling job.reservationId job.commitment (some job) candidate true
  | interrupted =>
    unfold Operation.apply
    cases hobserve : book.observeTime now with
    | error error => exact .inl rfl
    | ok observed => exact .inr ⟨observed, hobserve, .refl⟩

theorem apply_timed (operation : Operation) :
    Timed crypto now book (operation.apply crypto now book).2 := by
  cases hcreates : operation.creates with
  | false => exact (apply_settling operation hcreates).timed
  | true =>
    cases operation with
    | reserveFirmQuoteFromSnapshot owner key digest draft policy observedAt maximumAge =>
      exact reserveFirmQuoteFromSnapshot_timed owner key digest draft policy observedAt maximumAge
    | _ => cases hcreates

/-! ## The book can always be opened -/

theorem run_integrity (hbook : Integrity crypto book) (steps : List Step) :
    Integrity crypto (run crypto book steps) := by
  induction steps generalizing book with
  | nil => exact hbook
  | cons step rest ih => exact ih ((apply_timed step.1).integrity hbook)

theorem Timed.identity_eq (htimed : Timed crypto now book next) :
    next.identity = book.identity := by
  have hwrites : ∀ start finish, Writes crypto now start finish →
      finish.identity = start.identity := by
    intro start finish hwrites
    induction hwrites with
    | refl => rfl
    | tail _ hstep ih => cases hstep <;> exact ih
  rcases htimed with rfl | ⟨observed, hobserve, hrest⟩
  · rfl
  · rw [hwrites observed next hrest, (observeTime_eq_ok.mp hobserve).2]

theorem run_identity (steps : List Step) : (run crypto book steps).identity = book.identity := by
  induction steps generalizing book with
  | nil => rfl
  | cons step rest ih => exact ih.trans (apply_timed step.1).identity_eq

/-- After every run from an empty database, all checks of the opening of the
book pass. -/
theorem run_reopens (identity : ProviderIdentity) (steps : List Step) :
    (run crypto { identity } steps).reopen crypto identity =
      .ok (run crypto { identity } steps) := by
  have hempty : Integrity crypto { identity } := .empty identity
  have hintegrity := run_integrity hempty steps
  simp only [reopen, bind_eq_ok, require_eq_ok, pure_eq_ok]
  exact ⟨(), run_identity steps, (), hintegrity.validateStoreIntegrity, trivial⟩

/-! ## A run which signs -/

def sampleCrypto : ProviderCrypto where
  isProvablyUnspendable _ := false
  newV1P2tr _ := [81]
  deriveReservationId owner key := owner + key
  quoteRequest request := request.maximumInputAssetVenueFee + 1
  quoteTranscript _ := 2
  recoveryMetadata _ := 3
  requestFingerprint _ := 4
  signingTranscript transcript := transcript.preSignPayload.length
  signedArtifact _ bytes := bytes.length
  recomputeInventoryBinding item _ := item.binding
  eligibleInventory _ := 5

def sampleIdentity : ProviderIdentity := ⟨1, 2, 3⟩

def sampleInventoryItem : InventoryItem := ⟨⟨⟨7, 0⟩, 10, 50, 1, 1, 9⟩, by decide⟩

def sampleRequest : FirmQuoteRequest where
  context := ⟨⟨.liquidTestnet, 2⟩, ⟨⟨8, 0⟩⟩, 3⟩
  kind := .exactIn ⟨11, 40⟩ 10 1
  recipient := ⟨[82], 1⟩
  maximumInputAssetVenueFee := 0

def sampleFeePolicy : FeePolicy := ⟨⟨3, 1, 0, 4000, .regularVbytes⟩, by decide⟩

def samplePolicy : QuoteEnginePolicy where
  quoteLifetimeMillis := 10
  maximumLiveQuotesPerOwner := 2
  maximumLiveQuotesGlobal := 2
  feePolicy := sampleFeePolicy
  lifetime_pos := by decide
  limits := by decide

def sampleTxOut : TxOut :=
  { asset := .confidential false 1, value := .confidential false 2,
    nonce := .confidential false 3, scriptPubkey := [81],
    witness := ⟨some [1], some [2]⟩ }

def sampleDraft : FirmQuoteDraft where
  request := sampleRequest
  execution := ⟨⟨11, 40⟩, ⟨10, 40⟩, 0⟩
  pricing := ⟨⟨1, 1⟩, 0, 0, 0⟩
  snapshot := ⟨⟨0, 0⟩, 0, 0, 5⟩
  contribution := ⟨[⟨1, ⟨7, 0⟩, sampleTxOut, 9⟩],
    [⟨1, .providerPayment, 11, 40, ⟨[81], 1⟩, .takerPaymentInput⟩,
      ⟨2, .takerReceive, 10, 40, ⟨[82], 1⟩, .providerInput 1⟩,
      ⟨3, .providerChange, 10, 10, ⟨[81], 1⟩, .providerInput 1⟩]⟩
  providerReceiveRecovery := ⟨1, 1⟩
  providerChangeRecovery := some ⟨1, 1⟩
  selectedAsset := 10
  selectedAmount := 50

def sampleFee : TransactionFee := ⟨⟨3, 100, 400, 100, 100⟩, by decide⟩

def sampleSteps : List Step :=
  [(.importInventoryBatch [sampleInventoryItem], 1),
    (.reserveFirmQuoteFromSnapshot 20 30 1 sampleDraft samplePolicy 1 5, 2),
    (.commitBeforeSign ⟨50, 20⟩ [1, 2, 3] sampleFee, 3), (.recordSigned 50 3 [4, 5], 4)]

/-- The sample run ends with the output committed for good. -/
example : (run sampleCrypto { identity := sampleIdentity } sampleSteps).allocations[
    (⟨7, 0⟩ : OutPoint)]? = some (.committed 50 3) := by decide +kernel

end ReservationBook

end DeadcatNode
