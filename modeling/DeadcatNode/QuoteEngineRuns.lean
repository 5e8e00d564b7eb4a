import DeadcatNode.QuoteEngine
import DeadcatNode.ReservationLifecycle

/-!
# Runs of the quote engine

Any number of calls of one engine work on one book: scans of the wallet, reads
of the eligible inventory and firm quotes.  A call is advanced from one access
of shared state to the next; taking the lock of the coordinator is part of the
first access under it and releasing it part of the last.  Between two steps of a
call other calls run, and any other operation of the book.
-/

namespace DeadcatNode

open Checked ReservationBook

/-! ## Calls -/

/-- The arguments of a firm quote. -/
structure QuoteInput where
  owner : OwnerId
  key : IdempotencyKey
  request : FirmQuoteRequest
deriving DecidableEq

def QuoteInput.stored (identity : ProviderIdentity) (input : QuoteInput) : StoredQuoteRequest :=
  .fromDomain identity input.owner input.key input.request

def QuoteInput.digest (crypto : ProviderCrypto) (identity : ProviderIdentity)
    (input : QuoteInput) : QuoteRequestDigest :=
  quoteRequestDigest crypto identity input.owner input.key input.request

/-- Where a firm quote is.  It holds the lock of the coordinator while it
intersects, and from the admission of its draft to the final write. -/
inductive QuoteProgress (E : Type) where
  | preflight
  | expiring
  | reading
  | intersecting (pair : MarketQuoteConfig × PairRule) (latest : PublishedSnapshot)
  | drafting (pair : MarketQuoteConfig × PairRule) (eligible : EligibleInventory)
  | submitting (eligible : EligibleInventory) (draft : FirmQuoteDraft)
  | admitting (eligible : EligibleInventory) (draft : FirmQuoteDraft)
  | comparing (eligible : EligibleInventory) (draft : FirmQuoteDraft) (latest : PublishedSnapshot)
  | reserving (eligible : EligibleInventory) (draft : FirmQuoteDraft) (latest : PublishedSnapshot)
  | done (result : Except (QuoteEngineError E) FirmQuoteOutcome)
  | lost

/-- Where a scan of the wallet is.  It holds the lock from the scan on. -/
inductive RefreshProgress (E : Type) where
  | scanning
  | importing (snapshot : InventorySnapshot) (generation : ℕ)
  | publishing (published : PublishedSnapshot)
  | done (result : Except (InventoryCoordinatorError E) EligibleInventory)
  | lost

/-- Where a read of the eligible inventory is. -/
inductive ReadProgress (E : Type) where
  | reading
  | intersecting (latest : PublishedSnapshot)
  | done (result : Except (InventoryCoordinatorError E) EligibleInventory)
  | lost

inductive EngineCall (E : Type) where
  | firmQuote (input : QuoteInput) (progress : QuoteProgress E)
  | refresh (progress : RefreshProgress E)
  | eligible (progress : ReadProgress E)

inductive EngineRequest where
  | firmQuote (input : QuoteInput)
  | refresh
  | eligible

def EngineRequest.start {E : Type} : EngineRequest → EngineCall E
  | .firmQuote input => .firmQuote input .preflight
  | .refresh => .refresh .scanning
  | .eligible => .eligible .reading

namespace EngineCall

variable {E : Type}

/-- The next access needs the lock. -/
def awaitsLock : EngineCall E → Bool
  | .firmQuote _ .reading | .firmQuote _ (.submitting _ _) | .refresh .scanning
  | .eligible .reading => true
  | _ => false

def holdsLock : EngineCall E → Bool
  | .firmQuote _ (.intersecting _ _) | .firmQuote _ (.admitting _ _)
  | .firmQuote _ (.comparing _ _ _) | .firmQuote _ (.reserving _ _ _)
  | .refresh (.importing _ _) | .refresh (.publishing _)
  | .eligible (.intersecting _) => true
  | _ => false

def stop : EngineCall E → EngineCall E
  | .firmQuote input (.done result) => .firmQuote input (.done result)
  | .firmQuote input _ => .firmQuote input .lost
  | .refresh (.done result) => .refresh (.done result)
  | .refresh _ => .refresh .lost
  | .eligible (.done result) => .eligible (.done result)
  | .eligible _ => .eligible .lost

def quoted? : EngineCall E → Option (Except (QuoteEngineError E) FirmQuoteOutcome)
  | .firmQuote _ (.done result) => some result
  | _ => none

/-- The request of a quote which was not read yet, or was answered. -/
def answered? : EngineCall E → Option (QuoteInput × Option FirmQuoteOutcome)
  | .firmQuote input .preflight => some (input, none)
  | .firmQuote input (.done (.ok outcome)) => some (input, some outcome)
  | _ => none

theorem eq_of_answered? {call : EngineCall E} {input : QuoteInput}
    {found : Option FirmQuoteOutcome} (hcall : call.answered? = some (input, found)) :
    call = .firmQuote input (found.elim .preflight (.done <| .ok ·)) := by
  unfold answered? at hcall
  split at hcall <;> cases hcall <;> rfl

end EngineCall

/-! ## Steps of a call -/

section Steps

variable {identity : ProviderIdentity} {E : Type} (crypto : ProviderCrypto)
  (config : EngineConfig identity) (coordinator : CoordinatorState)
  (book : ReservationBook) (now : UnixMillis) (answers : EngineAnswers crypto E)

/-- The access before pricing: an existing quote is replayed. -/
def QuoteInput.preflight (input : QuoteInput) : QuoteProgress E × ReservationBook :=
  match input.request.validate crypto.isProvablyUnspendable with
  | .error error => (.done (.error (.admission error)), book)
  | .ok () =>
    let written := book.preflightFirmQuote crypto input.owner input.key
      (input.digest crypto book.identity) config.policy now
    match written.1 with
    | .error error => (.done (.error (.provider error)), written.2)
    | .ok (some outcome) => (.done (.ok outcome), written.2)
    | .ok none => (.expiring, written.2)

def QuoteInput.expire : QuoteProgress E × ReservationBook :=
  let written := book.expireDue crypto now maxExpirationBatch
  match written.1 with
  | .error error => (.done (.error (.provider error)), written.2)
  | .ok expired =>
    (if expired.length < maxExpirationBatch then .reading else .expiring, written.2)

def QuoteInput.read (input : QuoteInput) : QuoteProgress E :=
  match config.catalog.resolve input.request.context input.request.kind.pair.1
    input.request.kind.pair.2 with
  | .error error => .done (.error (.admission error))
  | .ok pair =>
    match book.requireFresh config.freshness coordinator now with
    | .error error => .done (.error (.inventory error))
    | .ok latest => .intersecting pair latest

def QuoteInput.intersect (pair : MarketQuoteConfig × PairRule)
    (latest : PublishedSnapshot) : QuoteProgress E :=
  match book.eligibleFromSnapshot crypto latest with
  | .error error => .done (.error (.inventory (.provider error)))
  | .ok eligible => .drafting pair eligible

def QuoteInput.draft (input : QuoteInput) (pair : MarketQuoteConfig × PairRule)
    (eligible : EligibleInventory) : QuoteProgress E :=
  match draftQuote answers input.request pair.1 pair.2 eligible with
  | .error error => .done (.error error)
  | .ok draft => .submitting eligible draft

def QuoteInput.submit (input : QuoteInput) (eligible : EligibleInventory)
    (draft : FirmQuoteDraft) : QuoteProgress E × ReservationBook :=
  match draft.validate crypto.isProvablyUnspendable with
  | .error _ => (.done (.error (.inventory (.provider .firmQuoteDraftInvalid))), book)
  | .ok () =>
    let written := book.replayFirmQuote crypto input.owner input.key
      (input.digest crypto book.identity) now
    match written.1 with
    | .error error => (.done (.error (.inventory (.provider error))), written.2)
    | .ok (some outcome) => (.done (.ok outcome), written.2)
    | .ok none => (.admitting eligible draft, written.2)

def QuoteInput.admission (eligible : EligibleInventory) (draft : FirmQuoteDraft) :
    QuoteProgress E :=
  match book.requireFresh config.freshness coordinator now with
  | .error error => .done (.error (.inventory error))
  | .ok latest =>
    if latest.token ≠ eligible.token then
      .done (.error (.inventory (.snapshotSuperseded eligible.token latest.token)))
    else .comparing eligible draft latest

def QuoteInput.compare (eligible : EligibleInventory) (draft : FirmQuoteDraft)
    (latest : PublishedSnapshot) : QuoteProgress E :=
  match book.eligibleFromSnapshot crypto latest with
  | .error error => .done (.error (.inventory (.provider error)))
  | .ok current =>
    match draft.checkCurrent latest current with
    | .error error => .done (.error (.inventory error))
    | .ok () => .reserving eligible draft latest

def QuoteInput.reserve (input : QuoteInput) (draft : FirmQuoteDraft)
    (latest : PublishedSnapshot) : QuoteProgress E × ReservationBook :=
  let written := book.reserveFirmQuoteFromSnapshot crypto input.owner input.key
    (input.digest crypto book.identity) draft config.policy latest.token.observedAt
    config.freshness.maxSnapshotAgeMillis now
  (.done (written.1.mapError fun error => .inventory (.provider error)), written.2)

def QuoteProgress.advance (input : QuoteInput) : QuoteProgress E → QuoteProgress E × ReservationBook
  | .preflight => input.preflight crypto config book now
  | .expiring => QuoteInput.expire crypto book now
  | .reading => (input.read config coordinator book now, book)
  | .intersecting pair latest =>
    (QuoteInput.intersect crypto book pair latest, book)
  | .drafting pair eligible => (input.draft crypto answers pair eligible, book)
  | .submitting eligible draft => input.submit crypto book now eligible draft
  | .admitting eligible draft =>
    (QuoteInput.admission config coordinator book now eligible draft, book)
  | .comparing eligible draft latest =>
    (QuoteInput.compare crypto book eligible draft latest, book)
  | .reserving _ draft latest => input.reserve crypto config book now draft latest
  | .done result => (.done result, book)
  | .lost => (.lost, book)

/-- Scan, import and publish.  A complete scan drops the previous one, whatever
becomes of it. -/
def RefreshProgress.advance :
    RefreshProgress E → RefreshProgress E × ReservationBook × CoordinatorState
  | .scanning =>
    match answers.inventorySnapshot with
    | .error error => (.done (.error (.source error)), book, coordinator)
    | .ok snapshot =>
      let dropped := { coordinator with latest := none }
      match snapshot.admission book.identity config.freshness coordinator with
      | .error error => (.done (.error error), book, dropped)
      | .ok generation => (.importing snapshot generation, book, dropped)
  | .importing snapshot generation =>
    let written := book.importInventoryBatch (snapshot.outputs.map WalletOwnedOutput.item) now
    match written.1 with
    | .error error => (.done (.error (.provider error)), written.2, coordinator)
    | .ok _ =>
      (.publishing (snapshot.publish generation now), written.2, coordinator)
  | .publishing published =>
    match book.eligibleFromSnapshot crypto published with
    | .error error => (.done (.error (.provider error)), book, coordinator)
    | .ok eligible =>
      (.done (.ok eligible), book, ⟨published.token.generation, some published⟩)
  | .done result => (.done result, book, coordinator)
  | .lost => (.lost, book, coordinator)

def ReadProgress.advance : ReadProgress E → ReadProgress E
  | .reading =>
    match book.requireFresh config.freshness coordinator now with
    | .error error => .done (.error error)
    | .ok latest => .intersecting latest
  | .intersecting latest =>
    .done ((book.eligibleFromSnapshot crypto latest).mapError .provider)
  | .done result => .done result
  | .lost => .lost

def EngineCall.advance : EngineCall E → EngineCall E × ReservationBook × CoordinatorState
  | .firmQuote input progress =>
    let next := progress.advance crypto config coordinator book now answers input
    (.firmQuote input next.1, next.2, coordinator)
  | .refresh progress =>
    let next := progress.advance crypto config coordinator book now answers
    (.refresh next.1, next.2)
  | .eligible progress =>
    (.eligible (progress.advance crypto config coordinator book now), book, coordinator)

end Steps

/-! ## The system -/

structure EngineSystem (identity : ProviderIdentity) (E : Type) where
  book : ReservationBook := { identity }
  config : EngineConfig identity
  coordinator : CoordinatorState := {}
  calls : List (EngineCall E) := []

inductive EngineEvent (crypto : ProviderCrypto) (identity : ProviderIdentity) (E : Type) where
  | operation (operation : Operation) (now : UnixMillis)
  | call (request : EngineRequest)
  | advance (index : ℕ) (now : UnixMillis) (answers : EngineAnswers crypto E)
  | restart (config : EngineConfig identity)

namespace EngineSystem

variable {identity : ProviderIdentity} {E : Type} {crypto : ProviderCrypto}

def locked (system : EngineSystem identity E) : Bool :=
  system.calls.any EngineCall.holdsLock

def step (system : EngineSystem identity E) :
    EngineEvent crypto identity E → EngineSystem identity E
  | .operation operation now =>
    { system with book := (operation.apply crypto now system.book).2 }
  | .call request => { system with calls := system.calls ++ [request.start] }
  | .advance index now answers =>
    match system.calls[index]? with
    | none => system
    | some call =>
      if call.awaitsLock ∧ system.locked then system
      else
        let next := call.advance crypto system.config system.coordinator system.book now answers
        { system with
          book := next.2.1
          coordinator := next.2.2
          calls := system.calls.set index next.1 }
  | .restart config =>
    { book := system.book, config, calls := system.calls.map EngineCall.stop }

def run (system : EngineSystem identity E)
    (events : List (EngineEvent crypto identity E)) : EngineSystem identity E :=
  events.foldl step system

end EngineSystem

/-! ## The book under the engine -/

section Book

variable {identity : ProviderIdentity} {E : Type} {crypto : ProviderCrypto}
  {config : EngineConfig identity} {coordinator : CoordinatorState}
  {book : ReservationBook} {now : UnixMillis} {answers : EngineAnswers crypto E}

/-- A step leaves the book alone or is one operation of it. -/
def Operates (crypto : ProviderCrypto) (now : UnixMillis) (book next : ReservationBook) : Prop :=
  next = book ∨ ∃ operation : Operation,
    next = (operation.apply crypto now book).2

theorem QuoteInput.preflight_operates (input : QuoteInput) :
    Operates crypto now book (input.preflight (E := E) crypto config book now).2 := by
  unfold preflight
  cases input.request.validate crypto.isProvablyUnspendable with
  | error error => exact .inl rfl
  | ok _ =>
    right
    use .preflightFirmQuote input.owner input.key (input.digest crypto book.identity) config.policy
    simp only
    split <;> rfl

theorem QuoteInput.expire_operates :
    Operates crypto now book (QuoteInput.expire (E := E) crypto book now).2 := by
  unfold expire
  right
  use .expireDue maxExpirationBatch
  simp only
  split <;> rfl

theorem QuoteInput.submit_operates (input : QuoteInput)
    (eligible : EligibleInventory) (draft : FirmQuoteDraft) :
    Operates crypto now book (input.submit (E := E) crypto book now eligible draft).2 := by
  unfold submit
  cases draft.validate crypto.isProvablyUnspendable with
  | error error => exact .inl rfl
  | ok _ =>
    right
    use .replayFirmQuote input.owner input.key (input.digest crypto book.identity)
    simp only
    split <;> rfl

theorem QuoteProgress.advance_operates (input : QuoteInput) (progress : QuoteProgress E) :
    Operates crypto now book
      (progress.advance crypto config coordinator book now answers input).2 := by
  cases progress with
  | preflight => exact input.preflight_operates
  | expiring => exact QuoteInput.expire_operates
  | submitting eligible draft => exact input.submit_operates eligible draft
  | reserving eligible draft latest =>
    right
    exact ⟨.reserveFirmQuoteFromSnapshot input.owner input.key
      (input.digest crypto book.identity) draft config.policy
      latest.token.observedAt config.freshness.maxSnapshotAgeMillis, rfl⟩
  | reading | intersecting | drafting | admitting | comparing | done | lost => exact .inl rfl

theorem RefreshProgress.advance_operates (progress : RefreshProgress E) :
    Operates crypto now book (progress.advance crypto config coordinator book now answers).2.1 := by
  cases progress with
  | scanning =>
    left
    unfold advance
    cases answers.inventorySnapshot with
    | error error => rfl
    | ok snapshot =>
      simp only
      split <;> rfl
  | importing snapshot generation =>
    right
    use .importInventoryBatch (snapshot.outputs.map WalletOwnedOutput.item)
    unfold advance
    simp only
    split <;> rfl
  | publishing published =>
    left
    unfold advance
    simp only
    split <;> rfl
  | done | lost => exact .inl rfl

theorem EngineCall.advance_operates (call : EngineCall E) :
    Operates crypto now book (call.advance crypto config coordinator book now answers).2.1 := by
  cases call with
  | firmQuote input progress => exact progress.advance_operates input
  | refresh progress => exact progress.advance_operates
  | eligible progress => exact .inl rfl

namespace EngineSystem

variable {system : EngineSystem identity E}

theorem run_append (events later : List (EngineEvent crypto identity E)) :
    system.run (events ++ later) = (system.run events).run later :=
  List.foldl_append

theorem step_advance {index : ℕ} {call : EngineCall E} (hcall : system.calls[index]? = some call)
    (hlock : ¬(call.awaitsLock ∧ system.locked)) (now : UnixMillis)
    (answers : EngineAnswers crypto E) :
    system.step (.advance index now answers) = { system with
        book := (call.advance crypto system.config system.coordinator system.book now answers).2.1
        coordinator := (call.advance crypto system.config system.coordinator
          system.book now answers).2.2
        calls := system.calls.set index (call.advance crypto system.config
          system.coordinator system.book now answers).1 } := by
  simp only [step, hcall, if_neg hlock]

theorem step_operates (system : EngineSystem identity E) (event : EngineEvent crypto identity E) :
    ∃ now, Operates crypto now system.book (system.step event).book := by
  cases event with
  | operation operation now => exact ⟨now, .inr ⟨operation, rfl⟩⟩
  | call | restart => exact ⟨0, .inl rfl⟩
  | advance index now answers =>
    use now
    cases hcall : system.calls[index]? with
    | none =>
      left
      simp only [step, hcall]
    | some call =>
      by_cases hlock : call.awaitsLock ∧ system.locked
      · left
        simp only [step, hcall, if_pos hlock]
      · rw [step_advance hcall hlock]
        exact call.advance_operates

theorem run_book (system : EngineSystem identity E)
    (events : List (EngineEvent crypto identity E)) :
    ∃ steps, (system.run events).book = ReservationBook.run crypto system.book steps := by
  induction events generalizing system with
  | nil => exact ⟨[], rfl⟩
  | cons event rest ih =>
    obtain ⟨steps, hsteps⟩ := ih (system.step event)
    obtain ⟨now, hstep⟩ := system.step_operates event
    rcases hstep with hsame | ⟨operation, hoperation⟩
    · use steps
      rw [← hsame]
      exact hsteps
    · use (operation, now) :: steps
      change ((system.step event).run rest).book = _
      rw [hsteps, hoperation]
      rfl

theorem step_timed (system : EngineSystem identity E) (event : EngineEvent crypto identity E) :
    ∃ now, Timed crypto now system.book (system.step event).book := by
  obtain ⟨now, hstep⟩ := system.step_operates event
  use now
  rcases hstep with hsame | ⟨operation, hoperation⟩
  · exact .inl hsame
  · rw [hoperation]
    exact apply_timed operation

theorem run_integrity (hsystem : Integrity crypto system.book)
    (events : List (EngineEvent crypto identity E)) :
    Integrity crypto (system.run events).book := by
  obtain ⟨steps, hsteps⟩ := system.run_book events
  rw [hsteps]
  exact ReservationBook.run_integrity hsystem steps

theorem run_identity (events : List (EngineEvent crypto identity E)) :
    (system.run events).book.identity = system.book.identity := by
  obtain ⟨steps, hsteps⟩ := system.run_book events
  rw [hsteps]
  exact ReservationBook.run_identity steps

end EngineSystem

end Book

/-! ## A provider with one output -/

def quotedMarket : MarketQuoteConfig where
  context := ReservationBook.sampleRequest.context
  assets := ⟨10, 11, 12, by decide⟩
  pairs := [⟨11, 10, sampleLimits⟩]
  anchored := by decide
  enabled := by decide
  launch := by decide
  directions := by decide

def quotingConfig : EngineConfig sampleIdentity where
  catalog := ⟨[quotedMarket], by decide, by decide, by decide⟩
  policy := samplePolicy
  freshness := ⟨5, 10, by decide, samplePolicy.lifetime_pos⟩
  policyAsset := rfl

def quotingAnswers : EngineAnswers ReservationBook.sampleCrypto Unit where
  inventorySnapshot := .ok ⟨sampleIdentity, ⟨0, 0⟩,
    [⟨sampleTxOut, sampleInventoryItem⟩], 0, List.pairwise_singleton _ _⟩
  price _ := .ok ⟨⟨1, 1⟩, 0, 0, 0⟩
  freshConfidentialDestination _ := .ok ⟨[81], 1, 1, 1, rfl⟩

def quotingInput : QuoteInput :=
  ⟨20, 30, { ReservationBook.sampleRequest with kind := .exactIn ⟨11, 50⟩ 10 1 }⟩

abbrev QuotingEvent : Type := EngineEvent ReservationBook.sampleCrypto sampleIdentity Unit

def advances (index now count : ℕ) : List QuotingEvent :=
  List.replicate count (.advance index now quotingAnswers)

def scanAndRequest : List QuotingEvent :=
  .call .refresh :: advances 0 1 3 ++
    [.call (.firmQuote quotingInput), .call (.firmQuote quotingInput)]

abbrev quotingRun (events : List QuotingEvent) : EngineSystem sampleIdentity Unit :=
  EngineSystem.run { config := quotingConfig } events

/-- What a firm quote returned: an error, or whether it created the quote. -/
def EngineCall.created? {E : Type} (call : EngineCall E) : Option (Option Bool) :=
  call.quoted?.map fun
    | .ok outcome => some outcome.created
    | .error _ => none

/-- The first request creates a quote and the second one, made meanwhile, finds
it under the lock. -/
example : (quotingRun (scanAndRequest ++ advances 2 2 4 ++ advances 1 2 9 ++
    advances 2 2 2)).calls.map EngineCall.created? =
    [none, some (some true), some (some false)] := by decide +kernel

end DeadcatNode
