import DeadcatNode.ReservationBook
import Mathlib.Logic.Relation

/-!
# What the operations of the book do

Every operation of the reservation book is the observation of a time followed
by a sequence of five kinds of changes: an output is imported, a reservation is
created, released, committed or signed.  The results about whole runs are proved
of these changes.
-/

namespace DeadcatNode

open Checked

namespace ReservationBook

variable {reservationId : ReservationId} {owner : OwnerId} {reason : ReleaseReason}

/-! ## The changes -/

section Changes

variable (book : ReservationBook)

def logged (at' : UnixMillis) (event : StoredAuditEvent) : ReservationBook :=
  { book with
    auditSequence := book.auditSequence + 1
    audit := book.audit.insert (book.auditSequence + 1) ⟨book.auditSequence + 1, at', event⟩ }

def afterImport (now : UnixMillis) (item : StoredInventoryItem) : ReservationBook :=
  { book with inventory := book.inventory.insert item.outpoint item }.logged now
    (.inventoryImported item.outpoint)

def putCreated (record : StoredReservation) : ReservationBook :=
  { book with
    reservations := book.reservations.insert record.id record
    requestKeys := book.requestKeys.insert (requestKey record.owner record.idempotencyKey)
      ⟨record.id, record.semanticRequestDigest, record.requestDigest⟩
    allocations := book.allocations.fill record.outpoints (.reserved record.id)
    allocationRevision := book.allocationRevision + 1
    expirations := book.expirations.insert (expirationKey record.acceptBefore record.id) ()
    liveQuotesByOwner := book.liveQuotesByOwner.insert
      (liveQuoteKey record.acceptBefore record.owner record.id) () }

def afterCreate (record : StoredReservation) : ReservationBook :=
  (book.putCreated record).logged record.createdAt (.reservationCreated record.id record.outpoints)

/-- A reservation leaves the reserved state: its indexes go and its record is
replaced. -/
def leaveReserved (record next : StoredReservation)
    (allocations : Table OutPoint StoredAllocation) : ReservationBook :=
  { book with
    allocations
    allocationRevision := book.allocationRevision + 1
    expirations := book.expirations.erase (expirationKey record.acceptBefore record.id)
    liveQuotesByOwner := book.liveQuotesByOwner.erase
      (liveQuoteKey record.acceptBefore record.owner record.id)
    reservations := book.reservations.insert record.id next }

def afterRelease (record : StoredReservation) (reason : ReleaseReason)
    (now : UnixMillis) : ReservationBook :=
  (book.leaveReserved record (record.release reason now)
    (book.allocations.eraseAll record.outpoints)).logged now (.reservationReleased record.id reason)

def afterCommit (record : StoredReservation) (intent : StoredSigningIntent) : ReservationBook :=
  (book.leaveReserved record (record.commit intent) (book.allocations.fill record.outpoints
      (.committed record.id intent.commitment))).logged intent.committedAt
    (.signingCommitted record.id intent.commitment)

def afterSign (record : StoredReservation) (intent : StoredSigningIntent)
    (artifact : StoredSignedArtifact) : ReservationBook :=
  (book.putReservation (record.sign intent artifact)).logged artifact.signedAt
    (.signedArtifactStored record.id artifact.digest)

end Changes

/-! ## Effects of the writes -/

section Effects

variable {crypto : ProviderCrypto} {book next : ReservationBook} {record : StoredReservation}

theorem observeTime_eq_ok {now : UnixMillis} : book.observeTime now = .ok next ↔
      (∀ previous, book.lastObservedTime = some previous → previous ≤ now) ∧
        next = { book with lastObservedTime := some now } := by
  unfold observeTime
  cases book.lastObservedTime with
  | none =>
    constructor
    · rintro ⟨rfl⟩
      exact ⟨fun previous hprevious => (by cases hprevious), rfl⟩
    · rintro ⟨-, rfl⟩
      rfl
  | some previous =>
    simp only [bind_eq_ok, require_eq_ok, pure_eq_ok, not_lt, Option.some.injEq, forall_eq']
    constructor
    · rintro ⟨-, hle, rfl⟩
      exact ⟨hle, rfl⟩
    · rintro ⟨hle, rfl⟩
      exact ⟨(), hle, rfl⟩

theorem timedWrite_regressed {α : Type} {write : ReservationBook → Except ProviderError (Written α)}
    {highWaterMark : UnixMillis} (hmark : book.lastObservedTime = some highWaterMark)
    (hregressed : now < highWaterMark) :
    book.timedWrite now write = (.error (.clockRegression highWaterMark now), book) := by
  have hobserve : book.observeTime now = .error (.clockRegression highWaterMark now) := by
    unfold observeTime
    rw [hmark]
    simp [require, hregressed]
  unfold timedWrite
  rw [hobserve]

theorem appendAudit_eq_ok {at' : UnixMillis} {event : StoredAuditEvent} :
    book.appendAudit at' event = .ok next ↔
      book.auditSequence + 1 < 2 ^ 64 ∧ next = book.logged at' event := by
  simp only [appendAudit, bind_eq_ok, okOr_eq_ok, checkedAdd_eq_some, pure_eq_ok]
  constructor
  · rintro ⟨sequence, ⟨rfl, hlt⟩, rfl⟩
    exact ⟨hlt, rfl⟩
  · rintro ⟨hlt, rfl⟩
    exact ⟨_, ⟨rfl, hlt⟩, rfl⟩

theorem advanceAllocationRevision_eq_ok :
    book.advanceAllocationRevision = .ok next ↔ book.allocationRevision + 1 < 2 ^ 64 ∧
        next = { book with allocationRevision := book.allocationRevision + 1 } := by
  simp only [advanceAllocationRevision, bind_eq_ok, okOr_eq_ok, checkedAdd_eq_some, pure_eq_ok]
  constructor
  · rintro ⟨revision, ⟨rfl, hlt⟩, rfl⟩
    exact ⟨hlt, rfl⟩
  · rintro ⟨hlt, rfl⟩
    exact ⟨_, ⟨rfl, hlt⟩, rfl⟩

theorem checkReservedAllocations_eq_ok {u : Unit} : book.checkReservedAllocations record = .ok u ↔
      ∀ outpoint ∈ record.outpoints, book.allocations[outpoint]? = some (.reserved record.id) := by
  simp only [checkReservedAllocations, forM_eq_ok, bind_eq_ok, okOr_eq_ok, require_eq_ok]
  constructor
  · intro hall outpoint houtpoint
    obtain ⟨allocation, hrow, rfl⟩ := hall outpoint houtpoint
    exact hrow
  · intro hall outpoint houtpoint
    exact ⟨_, hall outpoint houtpoint, rfl⟩

theorem removeExpiration_eq_ok : book.removeExpiration record = .ok next ↔
      book.expirations[expirationKey record.acceptBefore record.id]? ≠ none ∧
        next = { book with
          expirations := book.expirations.erase
            (expirationKey record.acceptBefore record.id) } := by
  simp only [removeExpiration, bind_eq_ok, require_eq_ok, pure_eq_ok]
  constructor
  · rintro ⟨-, hrow, rfl⟩
    exact ⟨hrow, rfl⟩
  · rintro ⟨hrow, rfl⟩
    exact ⟨(), hrow, rfl⟩

theorem removeLiveQuoteIndex_eq_ok : book.removeLiveQuoteIndex record = .ok next ↔
      (book.liveQuotesByOwner[liveQuoteKey record.acceptBefore record.owner
        record.id]? = none ↔ record.quote = none) ∧
        next = { book with
          liveQuotesByOwner := book.liveQuotesByOwner.erase
            (liveQuoteKey record.acceptBefore record.owner record.id) } := by
  simp only [removeLiveQuoteIndex, bind_eq_ok, require_eq_ok, pure_eq_ok]
  constructor
  · rintro ⟨-, hmissing, -, hunexpected, rfl⟩
    exact ⟨by tauto, rfl⟩
  · rintro ⟨hrow, rfl⟩
    exact ⟨(), by tauto, (), by tauto, rfl⟩

structure Leaves (book : ReservationBook) (record : StoredReservation) : Prop where
  reserved : record.state = .reserved
  allocated : ∀ outpoint ∈ record.outpoints,
    book.allocations[outpoint]? = some (.reserved record.id)
  expiration : book.expirations[expirationKey record.acceptBefore record.id]? ≠ none
  liveQuote : book.liveQuotesByOwner[liveQuoteKey record.acceptBefore
    record.owner record.id]? = none ↔ record.quote = none
  revision : book.allocationRevision + 1 < 2 ^ 64
  sequence : book.auditSequence + 1 < 2 ^ 64

theorem releaseReserved_eq_ok {now : UnixMillis} :
    book.releaseReserved record reason now = .ok next ↔
      Leaves book record ∧ next = book.afterRelease record reason now := by
  simp only [releaseReserved, bind_eq_ok, require_eq_ok,
    checkReservedAllocations_eq_ok, advanceAllocationRevision_eq_ok,
    removeExpiration_eq_ok, removeLiveQuoteIndex_eq_ok, appendAudit_eq_ok]
  constructor
  · rintro ⟨-, hreserved, -, hallocated, -, ⟨hrevision, rfl⟩, -,
      ⟨hexpiration, rfl⟩, -, ⟨hlive, rfl⟩, hsequence, rfl⟩
    exact ⟨⟨hreserved, hallocated, hexpiration, hlive, hrevision, hsequence⟩, rfl⟩
  · rintro ⟨hleaves, rfl⟩
    exact ⟨(), hleaves.reserved, (), hleaves.allocated, _,
      ⟨hleaves.revision, rfl⟩, _, ⟨hleaves.expiration, rfl⟩, _,
      ⟨hleaves.liveQuote, rfl⟩, hleaves.sequence, rfl⟩

theorem persistNewReservation_eq_ok : book.persistNewReservation record = .ok next ↔
      book.allocationRevision + 1 < 2 ^ 64 ∧ book.auditSequence + 1 < 2 ^ 64 ∧
        next = book.afterCreate record := by
  simp only [persistNewReservation, bind_eq_ok, advanceAllocationRevision_eq_ok, appendAudit_eq_ok]
  constructor
  · rintro ⟨-, ⟨hrevision, rfl⟩, hsequence, rfl⟩
    exact ⟨hrevision, hsequence, rfl⟩
  · rintro ⟨hrevision, hsequence, rfl⟩
    exact ⟨_, ⟨hrevision, rfl⟩, hsequence, rfl⟩

theorem importItem_eq_ok {now : UnixMillis} {item : StoredInventoryItem} :
    importItem now book item = .ok next ↔
      book.auditSequence + 1 < 2 ^ 64 ∧ next = book.afterImport now item := by
  unfold importItem
  rw [appendAudit_eq_ok]
  rfl

theorem readReservation_eq_ok {result : Option StoredReservation} :
    book.readReservation crypto reservationId = .ok result ↔
      book.reservations[reservationId]? = result ∧ ∀ record, result = some record →
          record.id = reservationId ∧ record.validate crypto = .ok () := by
  unfold readReservation
  cases book.reservations[reservationId]? with
  | none =>
    simp only [Except.ok.injEq]
    constructor
    · rintro rfl
      exact ⟨rfl, fun record hrecord => by cases hrecord⟩
    · rintro ⟨rfl, -⟩
      rfl
  | some record =>
    simp only [bind_eq_ok, require_eq_ok, pure_eq_ok]
    constructor
    · rintro ⟨_, hid, _, hvalid, rfl⟩
      refine ⟨rfl, fun other hother => ?_⟩
      cases hother
      exact ⟨hid, hvalid⟩
    · rintro ⟨rfl, hrecord⟩
      obtain ⟨hid, hvalid⟩ := hrecord record rfl
      exact ⟨(), hid, (), hvalid, rfl⟩

theorem requireReservation_eq_ok {error : ProviderError} :
    book.requireReservation crypto reservationId error = .ok record ↔
      book.reservations[reservationId]? = some record ∧
        record.id = reservationId ∧ record.validate crypto = .ok () := by
  simp only [requireReservation, bind_eq_ok, readReservation_eq_ok, okOr_eq_ok]
  constructor
  · rintro ⟨_, ⟨hrow, hrecord⟩, rfl⟩
    exact ⟨hrow, hrecord record rfl⟩
  · rintro ⟨hrow, hid, hvalid⟩
    refine ⟨_, ⟨hrow, fun other hother => ?_⟩, rfl⟩
    cases hother
    exact ⟨hid, hvalid⟩

theorem requireAuthorizedReservation_eq_ok :
    book.requireAuthorizedReservation crypto reservationId owner = .ok record ↔
      book.reservations[reservationId]? = some record ∧
        record.id = reservationId ∧ record.validate crypto = .ok () ∧ record.owner = owner := by
  simp only [requireAuthorizedReservation, bind_eq_ok, requireReservation_eq_ok,
    require_eq_ok, pure_eq_ok]
  constructor
  · rintro ⟨_, ⟨hrow, hid, hvalid⟩, -, howner, rfl⟩
    exact ⟨hrow, hid, hvalid, howner⟩
  · rintro ⟨hrow, hid, hvalid, howner⟩
    exact ⟨_, ⟨hrow, hid, hvalid⟩, (), howner, rfl⟩

end Effects

/-! ## The transition relation -/

structure Creates (crypto : ProviderCrypto) (now : UnixMillis)
    (book : ReservationBook) (record : StoredReservation) : Prop where
  created : record.createdAt = now
  reserved : record.state = .reserved
  fresh : book.reservations[record.id]? = none
  freshKey : book.requestKeys[requestKey record.owner record.idempotencyKey]? = none
  policyAsset : record.feePolicy.policyAsset = book.identity.policyAsset
  requestDigest : record.requestDigest = storedRequestDigest crypto book.identity record
  known : ∀ outpoint ∈ record.outpoints, book.inventory[outpoint]? ≠ none
  unallocated : ∀ outpoint ∈ record.outpoints, book.allocations[outpoint]? = none
  checked : ∃ quote, book.checkNewReservation crypto record = .ok quote
  sequence : book.auditSequence + 1 < 2 ^ 64

def committedIntent (crypto : ProviderCrypto) (now : UnixMillis)
    (record : StoredReservation) (preSignPayload : Bytes)
    (fee : StoredTransactionFee) (targets : List StoredSigningTarget) :
    StoredSigningIntent :=
  ⟨signingCommitment crypto record preSignPayload fee targets, preSignPayload, fee, now, targets⟩

structure Commits (crypto : ProviderCrypto) (now : UnixMillis)
    (book : ReservationBook) (record : StoredReservation) (preSignPayload : Bytes)
    (fee : StoredTransactionFee) (targets : List StoredSigningTarget) : Prop where
  beforeDeadline : now < record.acceptBefore
  payload : validateSettlementBytes preSignPayload = .ok ()
  validFee : fee.Valid
  policy : record.feePolicy.validate fee = .ok ()
  targets : book.signingTargetsForReservation record = .ok targets

def signedArtifactAt (crypto : ProviderCrypto) (now : UnixMillis)
    (intent : StoredSigningIntent) (bytes : Bytes) : StoredSignedArtifact :=
  ⟨crypto.signedArtifact intent.commitment bytes, bytes, now⟩

/-- One change of the book within a write at the observed time. -/
inductive Transition (crypto : ProviderCrypto) (now : UnixMillis) :
    ReservationBook → ReservationBook → Prop where
  | imported {book : ReservationBook} {item : StoredInventoryItem}
      (hvalid : item.Valid) (hnew : book.inventory[item.outpoint]? = none)
      (hsequence : book.auditSequence + 1 < 2 ^ 64) :
      Transition crypto now book (book.afterImport now item)
  | created {book : ReservationBook} {record : StoredReservation}
      (hcreates : Creates crypto now book record) :
      Transition crypto now book (book.afterCreate record)
  | released {book : ReservationBook} {record : StoredReservation}
      {reason : ReleaseReason} (hrow : book.reservations[record.id]? = some record)
      (hleaves : Leaves book record) (hreason : reason = .expired ↔ record.acceptBefore ≤ now) :
      Transition crypto now book (book.afterRelease record reason now)
  | committed {book : ReservationBook} {record : StoredReservation}
      {preSignPayload : Bytes} {fee : StoredTransactionFee} {targets : List StoredSigningTarget}
      (hrow : book.reservations[record.id]? = some record) (hleaves : Leaves book record)
      (hcommits : Commits crypto now book record preSignPayload fee targets) :
      Transition crypto now book (book.afterCommit record
        (committedIntent crypto now record preSignPayload fee targets))
  | signed {book : ReservationBook} {record : StoredReservation}
      {intent : StoredSigningIntent} {bytes : Bytes}
      (hrow : book.reservations[record.id]? = some record)
      (hcommitted : record.state = .committed intent)
      (hbytes : validateSettlementBytes bytes = .ok ())
      (hsequence : book.auditSequence + 1 < 2 ^ 64) :
      Transition crypto now book (book.afterSign record intent
        (signedArtifactAt crypto now intent bytes))

abbrev Writes (crypto : ProviderCrypto) (now : UnixMillis) :
    ReservationBook → ReservationBook → Prop :=
  Relation.ReflTransGen (Transition crypto now)

/-- What a timed operation may do: nothing, or a write after observing the
time. -/
def Timed (crypto : ProviderCrypto) (now : UnixMillis) (book next : ReservationBook) : Prop :=
  next = book ∨ ∃ observed, book.observeTime now = .ok observed ∧ Writes crypto now observed next

/-- A change which creates no reservation. -/
def Settles (crypto : ProviderCrypto) (now : UnixMillis) (book next : ReservationBook) : Prop :=
  Transition crypto now book next ∧ next.requestKeys = book.requestKeys

/-- The changes of a write which creates no reservation. -/
abbrev Settling (crypto : ProviderCrypto) (now : UnixMillis) :
    ReservationBook → ReservationBook → Prop :=
  Relation.ReflTransGen (Settles crypto now)

def TimedSettling (crypto : ProviderCrypto) (now : UnixMillis)
    (book next : ReservationBook) : Prop :=
  next = book ∨ ∃ observed, book.observeTime now = .ok observed ∧ Settling crypto now observed next

/-! ## The operations -/

section Operations

variable {crypto : ProviderCrypto} {book : ReservationBook} {now : UnixMillis}
  {next : ReservationBook} {record : StoredReservation}

theorem Settling.writes (hsettling : Settling crypto now book next) : Writes crypto now book next :=
  Relation.ReflTransGen.mono (fun _ _ hstep => hstep.1) _ _ hsettling

theorem TimedSettling.timed
    (hsettling : TimedSettling crypto now book next) : Timed crypto now book next := by
  rcases hsettling with hsame | ⟨observed, hobserve, hsettling⟩
  · exact .inl hsame
  · exact .inr ⟨observed, hobserve, hsettling.writes⟩

theorem timedWrite_settling {α : Type} {write : ReservationBook → Except ProviderError (Written α)}
    (hwrite : ∀ observed result, write observed = .ok result →
      Settling crypto now observed result.2) :
    TimedSettling crypto now book (book.timedWrite now write).2 := by
  unfold timedWrite
  cases hobserve : book.observeTime now with
  | error error => exact .inl rfl
  | ok observed =>
    right
    refine ⟨observed, hobserve, ?_⟩
    cases hresult : write observed with
    | error error =>
      simp only [hresult]
      exact .refl
    | ok result =>
      simp only [hresult]
      exact hwrite observed result hresult

theorem releaseReserved_settling (hrow : book.reservations[record.id]? = some record)
    (hreason : reason = .expired ↔ record.acceptBefore ≤ now)
    (hrelease : book.releaseReserved record reason now = .ok next) :
    Settling crypto now book next := by
  obtain ⟨hleaves, rfl⟩ := releaseReserved_eq_ok.mp hrelease
  exact .single ⟨.released hrow hleaves hreason, rfl⟩

theorem releaseReason_eq_expired (hreason : reason ≠ .expired) :
    releaseReason record now reason = .expired ↔ record.acceptBefore ≤ now := by
  unfold releaseReason
  by_cases hdue : record.acceptBefore ≤ now
  · simp [hdue]
  · simp [hdue, hreason]

theorem expireOne_settling {key : ExpirationKey}
    (hexpire : expireOne crypto now book key = .ok next) : Settling crypto now book next := by
  simp only [expireOne, bind_eq_ok, requireReservation_eq_ok, require_eq_ok] at hexpire
  obtain ⟨record, ⟨hrow, hid, -⟩, -, -, -, -, -, hdue, hrelease⟩ := hexpire
  rw [← hid] at hrow
  exact releaseReserved_settling hrow (iff_of_true rfl hdue) hrelease

theorem expireDueInWrite_settling {limit : ℕ} {result : List ReservationId × ReservationBook}
    (hexpire : book.expireDueInWrite crypto now limit = .ok result) :
    Settling crypto now book result.2 := by
  simp only [expireDueInWrite, bind_eq_ok, pure_eq_ok] at hexpire
  obtain ⟨next, hfold, rfl⟩ := hexpire
  exact foldlM_invariant (Settling crypto now book)
    (fun _ _ _ hwrites hstep => hwrites.trans (expireOne_settling hstep)) _ .refl hfold

theorem replayBindingInWrite_settling {binding : StoredRequestBinding}
    {result : StoredReservation × ReservationBook}
    (hreplay : book.replayBindingInWrite crypto binding now = .ok result) :
    Settling crypto now book result.2 := by
  simp only [replayBindingInWrite, bind_eq_ok, requireReservation_eq_ok, require_eq_ok] at hreplay
  obtain ⟨record, ⟨hrow, hid, -⟩, -, -, hreplay⟩ := hreplay
  rw [← hid] at hrow
  by_cases hdue : record.state = .reserved ∧ record.acceptBefore ≤ now
  · simp only [if_pos hdue, bind_eq_ok, pure_eq_ok] at hreplay
    obtain ⟨next, hrelease, rfl⟩ := hreplay
    exact releaseReserved_settling hrow (iff_of_true rfl hdue.2) hrelease
  · simp only [if_neg hdue, pure_eq_ok] at hreplay
    rw [← hreplay]

theorem replayRequest_settling {key : IdempotencyKey}
    {requestDigest : QuoteRequestDigest} {binding : StoredRequestBinding}
    {result : FirmQuoteOutcome × ReservationBook}
    (hreplay : book.replayRequest crypto owner key requestDigest binding now = .ok result) :
    Settling crypto now book result.2 := by
  simp only [replayRequest, bind_eq_ok, require_eq_ok, pure_eq_ok, Prod.exists] at hreplay
  obtain ⟨-, -, record, next, hbinding, outcome, -, rfl⟩ := hreplay
  exact replayBindingInWrite_settling hbinding

theorem withinQuota_settling {α : Type} {policy : QuoteEnginePolicy} {start : ReservationBook}
    {write : Except ProviderError (Written α)} {result : Written α}
    (hstart : Settling crypto now start book)
    (hwrite : ∀ result, write = .ok result → Settling crypto now start result.2)
    (hquota : book.withinQuota owner policy now write = .ok result) :
    Settling crypto now start result.2 := by
  unfold withinQuota at hquota
  split at hquota
  · exact hwrite result hquota
  · split at hquota
    · cases hquota
      exact hstart
    · cases hquota

theorem firstDuplicate_eq_none {seen outpoints : List OutPoint}
    (hnone : firstDuplicate seen outpoints = none) :
    outpoints.Nodup ∧ ∀ outpoint ∈ outpoints, outpoint ∉ seen := by
  induction outpoints generalizing seen with
  | nil => simp
  | cons outpoint rest ih =>
    unfold firstDuplicate at hnone
    by_cases hseen : outpoint ∈ seen
    · rw [if_pos hseen] at hnone
      cases hnone
    · rw [if_neg hseen] at hnone
      obtain ⟨hnodup, hrest⟩ := ih hnone
      constructor
      · apply List.nodup_cons.mpr
        exact ⟨fun hmem => hrest outpoint hmem List.mem_cons_self, hnodup⟩
      · intro other hother
        rcases List.mem_cons.mp hother with rfl | hother
        · exact hseen
        · exact fun hmem => hrest other hother (List.mem_cons_of_mem _ hmem)

theorem pendingInventory_eq {items : List InventoryItem} {pending : List StoredInventoryItem}
    (hpending : book.pendingInventory items = .ok pending) :
    pending = (items.filter fun item =>
      book.inventory[item.val.outpoint]? = none).map Subtype.val := by
  have happend := foldlM_appends id (fun item : InventoryItem =>
    if book.inventory[item.val.outpoint]? = none then [item.val] else []) (by
      intro pending item next hstep
      cases hrow : book.inventory[item.val.outpoint]? with
      | none =>
        simp only [hrow, pure_eq_ok] at hstep
        simp [← hstep]
      | some existing =>
        simp only [hrow, bind_eq_ok, require_eq_ok, pure_eq_ok] at hstep
        obtain ⟨-, -, rfl⟩ := hstep
        simp) items hpending
  rw [id, id, List.nil_append] at happend
  rw [happend]
  clear happend hpending
  induction items with
  | nil => rfl
  | cons item rest ih =>
    rw [List.flatMap_cons, ih, List.filter_cons]
    by_cases hrow : book.inventory[item.val.outpoint]? = none
    · rw [if_pos hrow, if_pos (decide_eq_true hrow)]
      rfl
    · rw [if_neg hrow, if_neg (by simpa using hrow)]
      rfl

theorem foldlM_importItem_settling {pending : List StoredInventoryItem} :
    ∀ {book next : ReservationBook}, (pending.map StoredInventoryItem.outpoint).Nodup →
      (∀ item ∈ pending, item.Valid ∧ book.inventory[item.outpoint]? = none) →
      pending.foldlM (importItem now) book = .ok next → Settling crypto now book next := by
  induction pending with
  | nil =>
    intro book next _ _ hfold
    simp only [List.foldlM_nil, pure_eq_ok] at hfold
    rw [hfold]
  | cons item rest ih =>
    intro book next hnodup hitems hfold
    simp only [List.foldlM_cons, bind_eq_ok, importItem_eq_ok] at hfold
    obtain ⟨mid, ⟨hsequence, rfl⟩, hrest⟩ := hfold
    obtain ⟨hfirst, hnodup⟩ := List.nodup_cons.mp hnodup
    obtain ⟨hvalid, hnew⟩ := hitems item List.mem_cons_self
    refine .head ⟨.imported hvalid hnew hsequence, rfl⟩ (ih hnodup (fun other hother => ?_) hrest)
    obtain ⟨hother', hnone⟩ := hitems other (List.mem_cons_of_mem _ hother)
    have hne : item.outpoint ≠ other.outpoint := by
      intro heq
      rw [heq] at hfirst
      exact hfirst (List.mem_map_of_mem hother)
    refine ⟨hother', ?_⟩
    simp [afterImport, logged, hne, hnone]

theorem importInventoryBatch_settling (items : List InventoryItem) :
    TimedSettling crypto now book (book.importInventoryBatch items now).2 := by
  unfold importInventoryBatch
  split
  · exact .inl rfl
  · next hnone =>
    apply timedWrite_settling
    intro observed result hwrite
    simp only [bind_eq_ok, pure_eq_ok] at hwrite
    obtain ⟨pending, hpending, next, hfold, rfl⟩ := hwrite
    obtain ⟨hnodup, -⟩ := firstDuplicate_eq_none hnone
    apply foldlM_importItem_settling _ _ hfold
    · rw [pendingInventory_eq hpending, List.map_map]
      exact hnodup.sublist (List.filter_sublist.map _)
    · intro item hitem
      rw [pendingInventory_eq hpending, List.mem_map] at hitem
      obtain ⟨source, hsource, rfl⟩ := hitem
      rw [List.mem_filter, decide_eq_true_eq] at hsource
      exact ⟨source.property, hsource.2⟩

theorem preflightFirmQuote_settling (owner : OwnerId) (key : IdempotencyKey)
    (requestDigest : QuoteRequestDigest) (policy : QuoteEnginePolicy) :
    TimedSettling crypto now book
      (book.preflightFirmQuote crypto owner key requestDigest policy now).2 := by
  apply timedWrite_settling
  intro observed result hwrite
  split at hwrite
  · simp only [bind_eq_ok, pure_eq_ok, Prod.exists] at hwrite
    obtain ⟨outcome, next, hreplay, rfl⟩ := hwrite
    exact replayRequest_settling hreplay
  · simp only [bind_eq_ok, Prod.exists] at hwrite
    obtain ⟨expired, next, hexpire, hquota⟩ := hwrite
    have hnext := expireDueInWrite_settling hexpire
    refine withinQuota_settling hnext (fun result hresult => ?_) hquota
    cases hresult
    exact hnext

theorem replayFirmQuote_settling (owner : OwnerId) (key : IdempotencyKey)
    (requestDigest : QuoteRequestDigest) :
    TimedSettling crypto now book (book.replayFirmQuote crypto owner key requestDigest now).2 := by
  apply timedWrite_settling
  intro observed result hwrite
  split at hwrite
  · cases hwrite
    exact .refl
  · simp only [bind_eq_ok, pure_eq_ok, Prod.exists] at hwrite
    obtain ⟨outcome, next, hreplay, rfl⟩ := hwrite
    exact replayRequest_settling hreplay

theorem checkSelected_eq_ok {draft : FirmQuoteDraft} {u : Unit}
    (hselected : book.checkSelected draft = .ok u) :
    ∀ outpoint ∈ draft.selectedOutpoints, book.inventory[outpoint]? ≠ none ∧
      book.allocations[outpoint]? = none := by
  intro outpoint houtpoint
  simp only [checkSelected, forM_eq_ok, bind_eq_ok, okOr_eq_ok] at hselected
  obtain ⟨item, hitem, input, -, -, -, hrow⟩ := hselected outpoint houtpoint
  refine ⟨by simp [hitem], ?_⟩
  split at hrow
  · cases hrow
  · assumption

theorem planOutpoints_eq_ok {outpoints sorted : List OutPoint}
    (hplan : planOutpoints outpoints = .ok sorted) : sorted.Perm outpoints := by
  simp only [planOutpoints, bind_eq_ok, require_eq_ok, pure_eq_ok] at hplan
  obtain ⟨-, -, -, -, rfl⟩ := hplan
  exact List.perm_insertionSort _ _

/-- What the policy has allowed when a reservation is created. -/
structure Admits (policy : QuoteEnginePolicy) (now : UnixMillis)
    (book : ReservationBook) (record : StoredReservation) : Prop where
  limits : book.enforceLiveQuoteLimits record.owner policy now = .ok ()
  deadline : record.acceptBefore = now + policy.quoteLifetimeMillis
  inRange : record.acceptBefore < 2 ^ 64

theorem reserveInWrite_creates {key : IdempotencyKey}
    {digest : QuoteRequestDigest} {draft : FirmQuoteDraft}
    {policy : QuoteEnginePolicy} {result : Written FirmQuoteOutcome}
    (hpolicy : policy.feePolicy.val.policyAsset = book.identity.policyAsset)
    (hkey : book.readRequestBinding owner key = none)
    (hwrite : book.reserveInWrite crypto owner key digest draft policy now = .ok result) :
    result.2 = book ∨ ∃ record, Creates crypto now book record ∧
      Admits policy now book record ∧ result.2 = book.afterCreate record := by
  simp only [reserveInWrite, bind_eq_ok, require_eq_ok, okOr_eq_ok,
    checkedAdd_eq_some, readReservation_eq_ok] at hwrite
  obtain ⟨-, -, acceptBefore, ⟨hdeadline, hrange⟩, -, -, existing, ⟨hrow, -⟩, -, rfl,
    _, hselected, hquota⟩ := hwrite
  unfold withinQuota at hquota
  split at hquota
  · next hlimits =>
    right
    simp only [bind_eq_ok, persistNewReservation_eq_ok, pure_eq_ok] at hquota
    obtain ⟨outpoints, hplan, quote, hchecked, next, ⟨-, hsequence, rfl⟩, view, -, rfl⟩ := hquota
    have hfree : ∀ outpoint ∈ outpoints, book.inventory[outpoint]? ≠ none ∧
        book.allocations[outpoint]? = none := fun outpoint houtpoint =>
      checkSelected_eq_ok hselected outpoint ((planOutpoints_eq_ok hplan).subset houtpoint)
    exact ⟨book.newReservation crypto owner key digest draft policy.feePolicy.val
      now acceptBefore outpoints, ⟨rfl, rfl, hrow, hkey, hpolicy, rfl,
        fun outpoint houtpoint => (hfree outpoint houtpoint).1,
        fun outpoint houtpoint => (hfree outpoint houtpoint).2,
        ⟨quote, hchecked⟩, hsequence⟩, ⟨hlimits, hdeadline.symm, hrange⟩, rfl⟩
  · left
    split at hquota
    · cases hquota
      rfl
    · cases hquota

theorem reserveFirmQuoteFromSnapshot_admits (owner : OwnerId)
    (key : IdempotencyKey) (digest : QuoteRequestDigest) (draft : FirmQuoteDraft)
    (policy : QuoteEnginePolicy) (observedAt : UnixMillis) (maximumAge : ℕ) :
    TimedSettling crypto now book (book.reserveFirmQuoteFromSnapshot crypto owner key
      digest draft policy observedAt maximumAge now).2 ∨
    ∃ observed record, book.observeTime now = .ok observed ∧
      Creates crypto now observed record ∧ Admits policy now observed record ∧
      (book.reserveFirmQuoteFromSnapshot crypto owner key digest draft policy
        observedAt maximumAge now).2 = observed.afterCreate record := by
  unfold reserveFirmQuoteFromSnapshot
  split
  · exact .inl (.inl rfl)
  · next hpolicy =>
    rw [not_not] at hpolicy
    -- The observed book has the identity of the book before.
    unfold TimedSettling timedWrite
    cases hobserve : book.observeTime now with
    | error error => exact .inl (.inl rfl)
    | ok observed =>
      have hidentity : observed.identity = book.identity := by
        rw [(observeTime_eq_ok.mp hobserve).2]
      rw [← hidentity] at hpolicy
      dsimp only
      cases hkey : observed.readRequestBinding owner key with
      | some binding =>
        left
        refine .inr ⟨observed, rfl, ?_⟩
        dsimp only
        cases hreplay : observed.replayRequest crypto owner key digest binding now with
        | error error => exact .refl
        | ok result => exact replayRequest_settling hreplay
      | none =>
        have hsame : ∃ book', Except.ok (ε := ProviderError) observed = .ok book' ∧
            Settling crypto now book' observed := ⟨observed, rfl, .refl⟩
        by_cases hfuture : now < observedAt
        · simp only [if_pos hfuture]
          exact .inl (.inr hsame)
        by_cases hstale : maximumAge ≤ now - observedAt
        · simp only [if_neg hfuture, if_pos hstale]
          exact .inl (.inr hsame)
        simp only [if_neg hfuture, if_neg hstale]
        cases hwrite : observed.reserveInWrite crypto owner key digest draft policy now with
        | error error => exact .inl (.inr hsame)
        | ok result =>
          rcases reserveInWrite_creates hpolicy hkey hwrite with
            hnext | ⟨record, hcreates, hadmits, hnext⟩
          · dsimp only
            rw [hnext]
            exact .inl (.inr hsame)
          · exact .inr ⟨observed, record, rfl, hcreates, hadmits, hnext⟩

theorem reserveFirmQuoteFromSnapshot_timed (owner : OwnerId)
    (key : IdempotencyKey) (digest : QuoteRequestDigest) (draft : FirmQuoteDraft)
    (policy : QuoteEnginePolicy) (observedAt : UnixMillis) (maximumAge : ℕ) :
    Timed crypto now book (book.reserveFirmQuoteFromSnapshot crypto owner key
      digest draft policy observedAt maximumAge now).2 := by
  rcases reserveFirmQuoteFromSnapshot_admits owner key digest draft policy observedAt
      maximumAge with hsettling | ⟨observed, record, hobserve, hcreates, -, hnext⟩
  · exact hsettling.timed
  · rw [hnext]
    exact .inr ⟨observed, hobserve, .single (.created hcreates)⟩

theorem cancel_settling (access : ReservationAccess) :
    TimedSettling crypto now book (book.cancel crypto access now).2 := by
  apply timedWrite_settling
  intro observed result hwrite
  simp only [bind_eq_ok, requireAuthorizedReservation_eq_ok] at hwrite
  obtain ⟨record, ⟨hrow, hid, -⟩, hwrite⟩ := hwrite
  rw [← hid] at hrow
  split at hwrite
  · simp only [bind_eq_ok, pure_eq_ok] at hwrite
    obtain ⟨next, hrelease, rfl⟩ := hwrite
    exact releaseReserved_settling hrow (releaseReason_eq_expired (by decide)) hrelease
  · cases hwrite
    exact .refl
  · cases hwrite
  · cases hwrite
  · cases hwrite

theorem rejectUncommitted_settling (reservationId : ReservationId) :
    TimedSettling crypto now book (book.rejectUncommitted crypto reservationId now).2 := by
  apply timedWrite_settling
  intro observed result hwrite
  simp only [bind_eq_ok, requireReservation_eq_ok] at hwrite
  obtain ⟨record, ⟨hrow, hid, -⟩, hwrite⟩ := hwrite
  rw [← hid] at hrow
  split at hwrite
  · simp only [bind_eq_ok, pure_eq_ok] at hwrite
    obtain ⟨next, hrelease, rfl⟩ := hwrite
    exact releaseReserved_settling hrow (releaseReason_eq_expired (by decide)) hrelease
  · cases hwrite
    exact .refl
  · cases hwrite
  · cases hwrite

theorem expireDue_settling (limit : ℕ) :
    TimedSettling crypto now book (book.expireDue crypto now limit).2 := by
  unfold expireDue
  split
  · exact .inl rfl
  · apply timedWrite_settling
    intro observed result hwrite
    simp only [bind_eq_ok, pure_eq_ok, Prod.exists] at hwrite
    obtain ⟨expired, next, hexpire, rfl⟩ := hwrite
    exact expireDueInWrite_settling hexpire

theorem commitReserved_eq_ok {preSignPayload : Bytes}
    {fee : StoredTransactionFee} {job : SigningJob} (hreserved : record.state = .reserved)
    (hcommit : book.commitReserved crypto record preSignPayload fee now = .ok (job, next)) :
    ∃ targets, Leaves book record ∧ record.feePolicy.validate fee = .ok () ∧
      book.signingTargetsForReservation record = .ok targets ∧
      next = book.afterCommit record
        (committedIntent crypto now record preSignPayload fee targets) ∧
      (committedIntent crypto now record preSignPayload fee targets).toJob record.id = .ok job := by
  simp only [commitReserved, StoredFeePolicy.toDomain, bind_eq_ok, require_eq_ok,
    mapError_eq_ok, checkReservedAllocations_eq_ok, pure_eq_ok,
    advanceAllocationRevision_eq_ok, removeExpiration_eq_ok,
    removeLiveQuoteIndex_eq_ok, appendAudit_eq_ok, Prod.mk.injEq] at hcommit
  obtain ⟨_, ⟨_, _, rfl⟩, _, hpolicy, targets, htargets, _, hallocated, _,
    ⟨hrevision, rfl⟩, _, ⟨hexpiration, rfl⟩, _, ⟨hlive, rfl⟩, _,
    ⟨hsequence, rfl⟩, _, hjob, rfl, rfl⟩ := hcommit
  exact ⟨targets, ⟨hreserved, hallocated, hexpiration, hlive, hrevision, hsequence⟩,
    hpolicy, htargets, rfl, hjob⟩

theorem commitBeforeSignInner_settling (access : ReservationAccess)
    (expected : Option QuoteCommitment) (preSignPayload : Bytes) (fee : TransactionFee) :
    TimedSettling crypto now book (book.commitBeforeSignInner crypto access expected
      preSignPayload fee now).2 := by
  unfold commitBeforeSignInner
  split
  · exact .inl rfl
  · next hpayload =>
    apply timedWrite_settling
    intro observed result hwrite
    simp only [bind_eq_ok, requireAuthorizedReservation_eq_ok, require_eq_ok] at hwrite
    obtain ⟨record, ⟨hrow, hid, -⟩, -, -, hwrite⟩ := hwrite
    rw [← hid] at hrow
    split at hwrite
    · simp only [bind_eq_ok, pure_eq_ok] at hwrite
      obtain ⟨-, -, job, -, rfl⟩ := hwrite
      exact .refl
    · simp only [bind_eq_ok, pure_eq_ok] at hwrite
      obtain ⟨-, -, artifact, -, rfl⟩ := hwrite
      exact .refl
    · cases hwrite
    · next hreserved =>
      by_cases hdue : record.acceptBefore ≤ now
      · simp only [if_pos hdue, bind_eq_ok, pure_eq_ok] at hwrite
        obtain ⟨next, hrelease, rfl⟩ := hwrite
        exact releaseReserved_settling hrow (iff_of_true rfl hdue) hrelease
      · simp only [if_neg hdue, bind_eq_ok, pure_eq_ok, Prod.exists] at hwrite
        obtain ⟨job, next, hcommit, rfl⟩ := hwrite
        obtain ⟨targets, hleaves, hpolicy, htargets, rfl, -⟩ :=
          commitReserved_eq_ok hreserved hcommit
        exact .single ⟨.committed hrow hleaves
          ⟨not_le.mp hdue, hpayload, fee.property, hpolicy, htargets⟩, rfl⟩

theorem commitValidatedBeforeSign_settling (expectedProvider : ProviderIdentity)
    (access : ReservationAccess) (expected : QuoteCommitment)
    (preSignPayload : Bytes) (fee : TransactionFee) :
    TimedSettling crypto now book (book.commitValidatedBeforeSign crypto expectedProvider
      access expected preSignPayload fee now).2 := by
  unfold commitValidatedBeforeSign
  split
  · exact .inl rfl
  · exact commitBeforeSignInner_settling access (some expected) preSignPayload fee

theorem recordSignedInWrite_settling
    {expectedCommitment : SigningCommitment} {expectedJob : Option SigningJob}
    {signedBytes : Bytes} {replayWinner : Bool} {result : Written SignedOutcome}
    (hbytes : validateSettlementBytes signedBytes = .ok ())
    (hwrite : book.recordSignedInWrite crypto reservationId expectedCommitment
      expectedJob signedBytes replayWinner now = .ok result) :
    Settling crypto now book result.2 := by
  simp only [recordSignedInWrite, bind_eq_ok, requireReservation_eq_ok] at hwrite
  obtain ⟨record, ⟨hrow, rfl, -⟩, -, -, hwrite⟩ := hwrite
  split at hwrite
  · next intent hcommitted =>
    simp only [bind_eq_ok, require_eq_ok, appendAudit_eq_ok, pure_eq_ok] at hwrite
    obtain ⟨-, -, -, rfl, artifact, -, next, ⟨hsequence, rfl⟩, rfl⟩ := hwrite
    have hsigned : Transition crypto now book (book.afterSign record intent
        (signedArtifactAt crypto now intent signedBytes)) :=
      .signed hrow hcommitted hbytes hsequence
    exact .single ⟨hsigned, rfl⟩
  · simp only [bind_eq_ok, require_eq_ok, pure_eq_ok] at hwrite
    obtain ⟨-, -, -, -, -, -, artifact, -, rfl⟩ := hwrite
    exact .refl
  · cases hwrite
  · cases hwrite

theorem recordSignedInner_settling (reservationId : ReservationId)
    (expectedCommitment : SigningCommitment) (expectedJob : Option SigningJob)
    (signedBytes : Bytes) (replayWinner : Bool) :
    TimedSettling crypto now book (book.recordSignedInner crypto reservationId
      expectedCommitment expectedJob signedBytes replayWinner now).2 := by
  unfold recordSignedInner
  dsimp only
  split
  · exact .inl rfl
  · next hbytes =>
    have htimed : TimedSettling crypto now book (book.timedWrite now fun book =>
        book.recordSignedInWrite crypto reservationId expectedCommitment expectedJob
          signedBytes replayWinner now).2 :=
      timedWrite_settling fun observed result hwrite => recordSignedInWrite_settling hbytes hwrite
    split
    · split
      · exact .inl rfl
      · split
        · exact .inl rfl
        · exact .inl rfl
        · exact htimed
    · exact htimed

end Operations

end ReservationBook

end DeadcatNode
