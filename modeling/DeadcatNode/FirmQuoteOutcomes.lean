import DeadcatNode.ReservationCommitments

/-!
# Answers to firm quotes

What the operations of the book on firm quotes return.  An owner's key is bound
to one quote for ever: a replay returns it, with nothing changed but the clock
and the expiry of what is due, and a new quote is returned only for a key which
was free.
-/

namespace DeadcatNode

open Checked

namespace ReservationBook

variable {crypto : ProviderCrypto} {book next : ReservationBook} {now : UnixMillis}
  {owner : OwnerId} {key : IdempotencyKey} {digest : QuoteRequestDigest}
  {record : StoredReservation} {binding : StoredRequestBinding} {quote : FirmQuote}
  {outcome : FirmQuoteOutcome} {policy : QuoteEnginePolicy} {draft : FirmQuoteDraft}
  {observedAt : UnixMillis}

/-! ## Expiry -/

/-- One reservation which is due is released. -/
def Expires (now : UnixMillis) (book next : ReservationBook) : Prop :=
  ∃ record : StoredReservation, book.reservations[record.id]? = some record ∧
    Leaves book record ∧ record.acceptBefore ≤ now ∧
    next = book.afterRelease record .expired now

/-- Nothing changes but the clock and the reservations which are due. -/
def Sweeps (now : UnixMillis) (book next : ReservationBook) : Prop :=
  next = book ∨ ∃ observed, book.observeTime now = .ok observed ∧
    Relation.ReflTransGen (Expires now) observed next

theorem releaseReserved_expires
    (hrow : book.reservations[record.id]? = some record) (hdue : record.acceptBefore ≤ now)
    (hrelease : book.releaseReserved record .expired now = .ok next) : Expires now book next := by
  obtain ⟨hleaves, hnext⟩ := releaseReserved_eq_ok.mp hrelease
  exact ⟨record, hrow, hleaves, hdue, hnext⟩

theorem expireDueInWrite_expires {limit : ℕ} {result : List ReservationId × ReservationBook}
    (hexpire : book.expireDueInWrite crypto now limit = .ok result) :
    Relation.ReflTransGen (Expires now) book result.2 := by
  simp only [expireDueInWrite, bind_eq_ok, pure_eq_ok] at hexpire
  obtain ⟨final, hfold, rfl⟩ := hexpire
  apply foldlM_invariant (Relation.ReflTransGen (Expires now) book) _ _ .refl hfold
  intro middle due later hmiddle hstep
  simp only [expireOne, bind_eq_ok, requireReservation_eq_ok, require_eq_ok] at hstep
  obtain ⟨record, ⟨hrow, hid, -⟩, -, -, -, -, -, hdue, hrelease⟩ := hstep
  rw [← hid] at hrow
  exact hmiddle.tail (releaseReserved_expires hrow hdue hrelease)

theorem timedWrite_sweeps {α : Type} {write : ReservationBook → Except ProviderError (Written α)}
    (hwrite : ∀ observed result, book.observeTime now = .ok observed → write observed = .ok result →
      Relation.ReflTransGen (Expires now) observed result.2) :
    Sweeps now book (book.timedWrite now write).2 := by
  unfold timedWrite
  cases hobserve : book.observeTime now with
  | error error => exact .inl rfl
  | ok observed =>
    right
    refine ⟨observed, hobserve, ?_⟩
    cases hresult : write observed with
    | error error =>
      simp only [hresult]
      exact .refl
    | ok result =>
      simp only [hresult]
      exact hwrite observed result hobserve hresult

theorem expireDue_sweeps (limit : ℕ) : Sweeps now book (book.expireDue crypto now limit).2 := by
  unfold expireDue
  split
  · exact .inl rfl
  · apply timedWrite_sweeps
    intro observed result _ hwrite
    simp only [bind_eq_ok, pure_eq_ok, Prod.exists] at hwrite
    obtain ⟨expired, final, hexpire, rfl⟩ := hwrite
    exact expireDueInWrite_expires hexpire

/-! ## Replay -/

def afterReplay (book : ReservationBook) (record : StoredReservation)
    (now : UnixMillis) : StoredReservation × ReservationBook :=
  if record.state = .reserved ∧ record.acceptBefore ≤ now then
    (record.release .expired now, book.afterRelease record .expired now)
  else (record, book)

theorem replayBindingInWrite_eq_ok {result : StoredReservation × ReservationBook} :
    book.replayBindingInWrite crypto binding now = .ok result ↔
      ∃ record, book.reservations[record.id]? = some record ∧
        record.validate crypto = .ok () ∧ record.binding = binding ∧
        (record.state = .reserved ∧ record.acceptBefore ≤ now → Leaves book record) ∧
        result = book.afterReplay record now := by
  simp only [replayBindingInWrite, bind_eq_ok, requireReservation_eq_ok, require_eq_ok]
  constructor
  · rintro ⟨record, ⟨hrow, hid, hvalid⟩, _, ⟨-, hsemantic, hdigest⟩, hresult⟩
    rw [← hid] at hrow
    have hbinding : record.binding = binding := by
      unfold StoredReservation.binding
      rw [hid, hsemantic, hdigest]
    refine ⟨record, hrow, hvalid, hbinding, ?_⟩
    unfold afterReplay
    by_cases hdue : record.state = .reserved ∧ record.acceptBefore ≤ now
    · simp only [if_pos hdue, bind_eq_ok, releaseReserved_eq_ok, pure_eq_ok] at hresult ⊢
      obtain ⟨_, ⟨hleaves, rfl⟩, rfl⟩ := hresult
      exact ⟨fun _ => hleaves, rfl⟩
    · simp only [if_neg hdue, pure_eq_ok] at hresult ⊢
      exact ⟨fun hcase => absurd hcase hdue, hresult.symm⟩
  · rintro ⟨record, hrow, hvalid, rfl, hleaves, rfl⟩
    refine ⟨record, ⟨hrow, rfl, hvalid⟩, (), ⟨rfl, rfl, rfl⟩, ?_⟩
    unfold afterReplay
    by_cases hdue : record.state = .reserved ∧ record.acceptBefore ≤ now
    · simp only [if_pos hdue, bind_eq_ok, releaseReserved_eq_ok, pure_eq_ok]
      exact ⟨_, ⟨hleaves hdue, rfl⟩, rfl⟩
    · simp only [if_neg hdue, pure_eq_ok]

theorem afterReplay_expires (hrow : book.reservations[record.id]? = some record)
    (hleaves : record.state = .reserved ∧ record.acceptBefore ≤ now → Leaves book record) :
    Relation.ReflTransGen (Expires now) book (book.afterReplay record now).2 := by
  unfold afterReplay
  by_cases hdue : record.state = .reserved ∧ record.acceptBefore ≤ now
  · rw [if_pos hdue]
    exact .single ⟨record, hrow, hleaves hdue, hdue.2, rfl⟩
  · rw [if_neg hdue]

theorem afterReplay_identity (record : StoredReservation) :
    (book.afterReplay record now).2.identity = book.identity := by
  unfold afterReplay
  split <;> rfl

theorem afterReplay_terms (record : StoredReservation) :
    SameTerms record (book.afterReplay record now).1 := by
  unfold afterReplay
  split <;> rfl

theorem afterReplay_row (hrow : book.reservations[record.id]? = some record) :
    (book.afterReplay record now).2.reservations[record.id]? =
      some (book.afterReplay record now).1 := by
  unfold afterReplay
  by_cases hdue : record.state = .reserved ∧ record.acceptBefore ≤ now
  · rw [if_pos hdue]
    simp [afterRelease, leaveReserved, logged]
  · rw [if_neg hdue]
    exact hrow

/-! ## The quote of a key -/

/-- A key of an owner is bound to a quote for requests with this digest. -/
def Bound (crypto : ProviderCrypto) (book : ReservationBook) (owner : OwnerId)
    (key : IdempotencyKey) (digest : QuoteRequestDigest) (quote : FirmQuote) :
    Prop :=
  ∃ (record : StoredReservation) (stored : StoredFirmQuote),
    book.readRequestBinding owner key = some record.binding ∧
    book.reservations[record.id]? = some record ∧
    record.semanticRequestDigest = digest ∧ record.quote = some stored ∧
    stored.toDomain crypto book.identity record = .ok quote

theorem Bound.unique {other : QuoteRequestDigest} {quote' : FirmQuote}
    (hbound : Bound crypto book owner key digest quote)
    (hbound' : Bound crypto book owner key other quote') : digest = other ∧ quote = quote' := by
  obtain ⟨record, stored, hkey, hrow, hdigest, hquote, hdomain⟩ := hbound
  obtain ⟨record', stored', hkey', hrow', hdigest', hquote', hdomain'⟩ := hbound'
  have hbinding : record.binding = record'.binding := Option.some.inj (hkey.symm.trans hkey')
  have hid : record.id = record'.id := congrArg StoredRequestBinding.reservationId hbinding
  rw [← hid] at hrow'
  have hsame : some record = some record' := hrow.symm.trans hrow'
  cases hsame
  rw [hquote] at hquote'
  cases hquote'
  rw [hdomain] at hdomain'
  exact ⟨hdigest.symm.trans hdigest', Except.ok.inj hdomain'⟩

theorem Transition.requestKeys (hstep : Transition crypto now book next) {slot : RequestKey}
    (hrow : book.requestKeys[slot]? = some binding) :
    next.requestKeys[slot]? = some binding := by
  cases hstep with
  | @created record hcreates =>
    have hne : requestKey record.owner record.idempotencyKey ≠ slot := by
      intro heq
      rw [← heq, hcreates.freshKey] at hrow
      cases hrow
    simp only [afterCreate, putCreated, logged, Table.row_insert, if_neg hne]
    exact hrow
  | imported | released | committed | signed => exact hrow

theorem Timed.requestKeys (htimed : Timed crypto now book next) {slot : RequestKey}
    (hrow : book.requestKeys[slot]? = some binding) :
    next.requestKeys[slot]? = some binding := by
  have hwrites : ∀ start finish, Writes crypto now start finish →
      start.requestKeys[slot]? = some binding → finish.requestKeys[slot]? = some binding := by
    intro start finish hwrites hstart
    induction hwrites with
    | refl => exact hstart
    | tail _ hstep ih => exact hstep.requestKeys ih
  rcases htimed with rfl | ⟨observed, hobserve, hrest⟩
  · exact hrow
  · apply hwrites observed next hrest
    rw [(observeTime_eq_ok.mp hobserve).2]
    exact hrow

theorem Bound.timed (hbound : Bound crypto book owner key digest quote)
    (htimed : Timed crypto now book next) : Bound crypto next owner key digest quote := by
  obtain ⟨record, stored, hkey, hrow, hdigest, hquote, hdomain⟩ := hbound
  have hsteps := htimed.recordSteps record.id
  rw [hrow] at hsteps
  obtain ⟨later, hlater, hkeeps⟩ := hsteps.keeps
  have hterms : later = { record with state := later.state } := hkeeps.terms
  refine ⟨later, stored, ?_, ?_, ?_, ?_, ?_⟩
  · rw [hterms]
    exact htimed.requestKeys hkey
  · rw [hterms]
    rw [hterms] at hlater
    exact hlater
  · rw [hterms]
    exact hdigest
  · rw [hterms]
    exact hquote
  · rw [hterms, htimed.identity_eq]
    exact hdomain

theorem toFirmQuoteOutcome_eq_ok {identity : ProviderIdentity} {created : Bool} :
    record.toFirmQuoteOutcome crypto identity created = .ok outcome ↔
      (∃ stored, record.quote = some stored ∧
        stored.toDomain crypto identity record = .ok outcome.quote) ∧
      record.toView crypto = .ok outcome.reservation ∧ outcome.created = created := by
  simp only [StoredReservation.toFirmQuoteOutcome, bind_eq_ok, okOr_eq_ok, pure_eq_ok]
  constructor
  · rintro ⟨stored, hquote, quote, hdomain, view, hview, rfl⟩
    exact ⟨⟨stored, hquote, hdomain⟩, hview, rfl⟩
  · rintro ⟨⟨stored, hquote, hdomain⟩, hview, rfl⟩
    exact ⟨stored, hquote, outcome.quote, hdomain, outcome.reservation, hview, rfl⟩

theorem replayRequest_bound {result : FirmQuoteOutcome × ReservationBook}
    (hkey : book.readRequestBinding owner key = some binding)
    (hreplay : book.replayRequest crypto owner key digest binding now = .ok result) :
    Bound crypto book owner key digest result.1.quote ∧
      result.1.created = false ∧ Relation.ReflTransGen (Expires now) book result.2 := by
  simp only [replayRequest, bind_eq_ok, require_eq_ok, pure_eq_ok, Prod.exists,
    replayBindingInWrite_eq_ok, toFirmQuoteOutcome_eq_ok] at hreplay
  obtain ⟨_, hdigest, record', final, ⟨record, hrow, hvalid, hbinding, hleaves,
    hresult⟩, outcome, ⟨⟨stored, hquote, hdomain⟩, hview, hcreated⟩, rfl⟩ := hreplay
  have hfinal : final = (book.afterReplay record now).2 := congrArg Prod.snd hresult
  have hrecord : record' = (book.afterReplay record now).1 := congrArg Prod.fst hresult
  have hterms : record' = { record with state := record'.state } := by
    rw [hrecord]
    exact afterReplay_terms record
  refine ⟨⟨record, stored, ?_, hrow, ?_, ?_, ?_⟩, hcreated, ?_⟩
  · rw [hbinding]
    exact hkey
  · rw [← hdigest, ← hbinding]
    rfl
  · rw [hterms] at hquote
    exact hquote
  · rw [hterms, hfinal, afterReplay_identity] at hdomain
    exact hdomain
  · rw [hfinal]
    exact afterReplay_expires hrow hleaves

/-! ## The operations on quotes -/

theorem Bound.of_observed {observed : ReservationBook}
    (hobserve : book.observeTime now = .ok observed)
    (hbound : Bound crypto observed owner key digest quote) :
    Bound crypto book owner key digest quote := by
  rw [(observeTime_eq_ok.mp hobserve).2] at hbound
  exact hbound

theorem preflightFirmQuote_replays
    (hok : (book.preflightFirmQuote crypto owner key digest policy now).1 = .ok (some outcome)) :
    Bound crypto book owner key digest outcome.quote ∧ outcome.created = false := by
  obtain ⟨observed, hobserve, hwrite⟩ := timedWrite_eq_ok hok
  split at hwrite
  · next binding hkey =>
    simp only [bind_eq_ok, pure_eq_ok, Prod.exists, Prod.mk.injEq, Except.ok.injEq,
      Option.some.injEq] at hwrite
    obtain ⟨replayed, final, hreplay, rfl, -⟩ := hwrite
    obtain ⟨hbound, hcreated, -⟩ := replayRequest_bound hkey hreplay
    exact ⟨hbound.of_observed hobserve, hcreated⟩
  · simp only [bind_eq_ok, Prod.exists] at hwrite
    obtain ⟨expired, final, hexpire, hquota⟩ := hwrite
    unfold withinQuota at hquota
    split at hquota
    · cases hquota
    · split at hquota <;> cases hquota

theorem replayFirmQuote_replays
    (hok : (book.replayFirmQuote crypto owner key digest now).1 = .ok (some outcome)) :
    Bound crypto book owner key digest outcome.quote ∧ outcome.created = false := by
  obtain ⟨observed, hobserve, hwrite⟩ := timedWrite_eq_ok hok
  split at hwrite
  · cases hwrite
  · next binding hkey =>
    simp only [bind_eq_ok, pure_eq_ok, Prod.exists, Prod.mk.injEq, Except.ok.injEq,
      Option.some.injEq] at hwrite
    obtain ⟨replayed, final, hreplay, rfl, -⟩ := hwrite
    obtain ⟨hbound, hcreated, -⟩ := replayRequest_bound hkey hreplay
    exact ⟨hbound.of_observed hobserve, hcreated⟩

/-- What the final write has found when it returns a new quote. -/
structure Reserves (crypto : ProviderCrypto) (book : ReservationBook)
    (owner : OwnerId) (key : IdempotencyKey) (draft : FirmQuoteDraft)
    (observedAt : UnixMillis) (maximumAge : ℕ) (now : UnixMillis) : Prop where
  free : book.readRequestBinding owner key = none
  revision : book.allocationRevision = draft.snapshot.allocationRevision
  observed : observedAt ≤ now
  recent : now - observedAt < maximumAge

theorem reserveInWrite_reserves
    (hwrite : book.reserveInWrite crypto owner key digest draft policy now =
      .ok (.ok outcome, next)) :
    book.allocationRevision = draft.snapshot.allocationRevision ∧
      outcome.created = true ∧ Bound crypto next owner key digest outcome.quote := by
  simp only [reserveInWrite, bind_eq_ok, require_eq_ok] at hwrite
  obtain ⟨_, hrevision, acceptBefore, -, _, -, existing, -, _, -, _, -, hquota⟩ := hwrite
  unfold withinQuota at hquota
  split at hquota
  · simp only [bind_eq_ok, persistNewReservation_eq_ok, pure_eq_ok, Prod.mk.injEq,
      Except.ok.injEq, checkNewReservation, okOr_eq_ok] at hquota
    obtain ⟨outpoints, -, quote, ⟨_, -, stored, hstored, domain, hdomain, selected, -,
      _, -, rfl⟩, final, ⟨-, -, rfl⟩, view, -, rfl, rfl⟩ := hquota
    refine ⟨hrevision, rfl, _, stored, ?_, ?_, rfl, hstored, hdomain⟩
    · simp [readRequestBinding, afterCreate, putCreated, logged, newReservation,
        StoredReservation.binding]
    · simp [afterCreate, putCreated, logged]
  · split at hquota
    · cases hquota
    · cases hquota

theorem reserveFirmQuoteFromSnapshot_eq_ok {maximumAge : ℕ}
    (hok : (book.reserveFirmQuoteFromSnapshot crypto owner key digest draft policy
      observedAt maximumAge now).1 = .ok outcome) :
    (outcome.created = false ∧ Bound crypto book owner key digest outcome.quote) ∨
    (outcome.created = true ∧ Reserves crypto book owner key draft observedAt maximumAge now ∧
      Bound crypto (book.reserveFirmQuoteFromSnapshot crypto owner key digest draft
        policy observedAt maximumAge now).2 owner key digest outcome.quote) := by
  unfold reserveFirmQuoteFromSnapshot at hok ⊢
  by_cases hpolicy : policy.feePolicy.val.policyAsset ≠ book.identity.policyAsset
  · rw [if_pos hpolicy] at hok
    cases hok
  rw [if_neg hpolicy] at hok ⊢
  obtain ⟨observed, hobserve, hwrite⟩ := timedWrite_eq_ok hok
  obtain ⟨-, hobserved⟩ := observeTime_eq_ok.mp hobserve
  split at hwrite
  · next binding hkey =>
    left
    simp only [bind_eq_ok, pure_eq_ok, Prod.exists, Prod.mk.injEq, Except.ok.injEq] at hwrite
    obtain ⟨replayed, final, hreplay, rfl, -⟩ := hwrite
    obtain ⟨hbound, hcreated, -⟩ := replayRequest_bound hkey hreplay
    exact ⟨hcreated, hbound.of_observed hobserve⟩
  · next hkey =>
    right
    by_cases hfuture : now < observedAt
    · rw [if_pos hfuture] at hwrite
      cases hwrite
    rw [if_neg hfuture] at hwrite
    by_cases hstale : maximumAge ≤ now - observedAt
    · rw [if_pos hstale] at hwrite
      cases hwrite
    rw [if_neg hstale] at hwrite
    obtain ⟨hrevision, hcreated, hbound⟩ := reserveInWrite_reserves hwrite
    rw [hobserved] at hkey hrevision
    exact ⟨hcreated, ⟨hkey, hrevision, not_lt.mp hfuture, not_le.mp hstale⟩, hbound⟩

theorem reserveFirmQuoteFromSnapshot_changed {maximumAge : ℕ}
    (hpolicy : policy.feePolicy.val.policyAsset = book.identity.policyAsset)
    (hclock : ∀ previous, book.lastObservedTime = some previous → previous ≤ now)
    (hfree : book.readRequestBinding owner key = none)
    (hobserved : observedAt ≤ now) (hrecent : now - observedAt < maximumAge)
    (hrevision : book.allocationRevision ≠ draft.snapshot.allocationRevision) :
    (book.reserveFirmQuoteFromSnapshot crypto owner key digest draft policy
      observedAt maximumAge now).1 = .error .eligibleInventoryChanged := by
  have hobserve : book.observeTime now = .ok { book with lastObservedTime := some now } :=
    observeTime_eq_ok.mpr ⟨hclock, rfl⟩
  have hkey : readRequestBinding { book with lastObservedTime := some now } owner
      key = none := hfree
  unfold reserveFirmQuoteFromSnapshot timedWrite
  rw [if_neg (not_not.mpr hpolicy)]
  simp only [hobserve, hkey, if_neg (not_lt.mpr hobserved),
    if_neg (not_le.mpr hrecent), reserveInWrite, require, if_neg hrevision]
  rfl

/-! ## Sweeps by the operations -/

theorem preflightFirmQuote_sweeps (policy : QuoteEnginePolicy) :
    Sweeps now book (book.preflightFirmQuote crypto owner key digest policy now).2 := by
  apply timedWrite_sweeps
  intro observed result _ hwrite
  split at hwrite
  · next binding hkey =>
    simp only [bind_eq_ok, pure_eq_ok, Prod.exists] at hwrite
    obtain ⟨replayed, final, hreplay, rfl⟩ := hwrite
    exact (replayRequest_bound hkey hreplay).2.2
  · simp only [bind_eq_ok, Prod.exists] at hwrite
    obtain ⟨expired, final, hexpire, hquota⟩ := hwrite
    have hexpired := expireDueInWrite_expires hexpire
    unfold withinQuota at hquota
    split at hquota
    · cases hquota
      exact hexpired
    · split at hquota
      · cases hquota
        exact hexpired
      · cases hquota

theorem replayFirmQuote_sweeps :
    Sweeps now book (book.replayFirmQuote crypto owner key digest now).2 := by
  apply timedWrite_sweeps
  intro observed result _ hwrite
  split at hwrite
  · cases hwrite
    exact .refl
  · next binding hkey =>
    simp only [bind_eq_ok, pure_eq_ok, Prod.exists] at hwrite
    obtain ⟨replayed, final, hreplay, rfl⟩ := hwrite
    exact (replayRequest_bound hkey hreplay).2.2

theorem reserveFirmQuoteFromSnapshot_sweeps {maximumAge : ℕ}
    (hkey : book.readRequestBinding owner key = some binding) :
    Sweeps now book (book.reserveFirmQuoteFromSnapshot crypto owner key digest draft
      policy observedAt maximumAge now).2 := by
  unfold reserveFirmQuoteFromSnapshot
  split
  · exact .inl rfl
  · apply timedWrite_sweeps
    intro observed result hobserve hwrite
    have hobserved : observed.readRequestBinding owner key = some binding := by
      rw [(observeTime_eq_ok.mp hobserve).2]
      exact hkey
    simp only [hobserved, bind_eq_ok, pure_eq_ok, Prod.exists] at hwrite
    obtain ⟨replayed, final, hreplay, rfl⟩ := hwrite
    exact (replayRequest_bound hobserved hreplay).2.2

/-! ## Exact retries and conflicts -/

theorem Timed.revision_le (htimed : Timed crypto now book next)
    (hle : book.allocationRevision ≤ book.auditSequence) :
    next.allocationRevision ≤ next.auditSequence := by
  have hstep : ∀ start finish, Transition crypto now start finish →
      start.allocationRevision ≤ start.auditSequence →
      finish.allocationRevision ≤ finish.auditSequence := by
    intro start finish hstep hstart
    cases hstep with
    | imported hvalid hnew hsequence => exact hstart.trans (Nat.le_succ _)
    | created | released | committed => exact Nat.succ_le_succ hstart
    | signed hrow hcommitted hbytes hsequence => exact hstart.trans (Nat.le_succ _)
  rcases htimed with rfl | ⟨observed, hobserve, hwrites⟩
  · exact hle
  · have hobserved : observed.allocationRevision ≤ observed.auditSequence := by
      rw [(observeTime_eq_ok.mp hobserve).2]
      exact hle
    induction hwrites with
    | refl => exact hobserved
    | tail _ htail ih => exact hstep _ _ htail ih

theorem Integrity.leaves (hbook : Integrity crypto book)
    (hle : book.allocationRevision ≤ book.auditSequence) (hroom : book.auditSequence + 1 < 2 ^ 64)
    (hrow : book.reservations[record.id]? = some record)
    (hreserved : record.state = .reserved) : Leaves book record := by
  constructor
  · exact hreserved
  · intro outpoint houtpoint
    apply hbook.allocation_eq hrow houtpoint
    simp [StoredReservation.allocation?, hreserved]
  · simp [(hbook.expiration_iff hrow).mpr hreserved]
  · have hlive := hbook.liveQuote_iff hrow
    simp only [hreserved, true_and] at hlive
    rw [← not_iff_not, ← ne_eq, ← ne_eq, ← hlive, Option.ne_none_iff_exists']
    constructor
    · rintro ⟨_, hentry⟩
      exact hentry
    · intro hentry
      exact ⟨(), hentry⟩
  · omega
  · exact hroom

theorem Bound.replayRequest_eq_ok (hbound : Bound crypto book owner key digest quote)
    (hbook : Integrity crypto book) (hnow : book.lastObservedTime = some now)
    (hle : book.allocationRevision ≤ book.auditSequence) (hroom : book.auditSequence + 1 < 2 ^ 64)
    (hkey : book.readRequestBinding owner key = some binding) :
    ∃ view final, book.replayRequest crypto owner key digest binding now =
      .ok (⟨quote, view, false⟩, final) := by
  obtain ⟨record, stored, hrecordKey, hrow, hdigest, hquote, hdomain⟩ := hbound
  have hbinding : record.binding = binding := Option.some.inj (hrecordKey.symm.trans hkey)
  have hleaves : record.state = .reserved ∧ record.acceptBefore ≤ now →
      Leaves book record := fun hdue => hbook.leaves hle hroom hrow hdue.1
  -- The book after the replay is consistent, so the record can be viewed.
  have hwrites : Writes crypto now book (book.afterReplay record now).2 := by
    unfold afterReplay
    by_cases hdue : record.state = .reserved ∧ record.acceptBefore ≤ now
    · rw [if_pos hdue]
      exact .single (.released hrow (hleaves hdue) (iff_of_true rfl hdue.2))
    · rw [if_neg hdue]
  have hvalid : ((book.afterReplay record now).1).validate crypto = .ok () :=
    ((hwrites.integrity hnow hbook).2.records _ _ (afterReplay_row hrow)).valid
  have hterms : (book.afterReplay record now).1 =
      { record with state := (book.afterReplay record now).1.state } :=
    afterReplay_terms record
  have hpolicy : ∃ policy, record.feePolicy.toDomain = .ok policy := by
    simp only [StoredFirmQuote.toDomain, bind_eq_ok] at hdomain
    obtain ⟨policy, hpolicy, -⟩ := hdomain
    exact ⟨policy, hpolicy⟩
  obtain ⟨policy, hpolicy⟩ := hpolicy
  have hview : ∃ view, ((book.afterReplay record now).1).toView crypto = .ok view := by
    simp only [StoredReservation.toView, bind_eq_ok, pure_eq_ok]
    refine ⟨_, (), hvalid, policy, ?_, rfl⟩
    rw [hterms]
    exact hpolicy
  obtain ⟨view, hview⟩ := hview
  refine ⟨view, (book.afterReplay record now).2, ?_⟩
  simp only [replayRequest, bind_eq_ok, require_eq_ok, pure_eq_ok, Prod.exists,
    replayBindingInWrite_eq_ok, toFirmQuoteOutcome_eq_ok]
  refine ⟨(), ?_, (book.afterReplay record now).1, (book.afterReplay record now).2,
    ⟨record, hrow, ?_, hbinding, hleaves, rfl⟩, ⟨quote, view, false⟩,
    ⟨⟨stored, ?_, ?_⟩, hview, rfl⟩, rfl⟩
  · rw [← hbinding]
    exact hdigest
  · exact (hbook.records _ _ hrow).valid
  · rw [hterms]
    exact hquote
  · rw [afterReplay_identity, hterms]
    exact hdomain

theorem Bound.preflightFirmQuote_eq
    (hbound : Bound crypto book owner key digest quote) (hbook : Integrity crypto book)
    (hclock : ∀ previous, book.lastObservedTime = some previous → previous ≤ now)
    (hle : book.allocationRevision ≤ book.auditSequence)
    (hroom : book.auditSequence + 1 < 2 ^ 64) (policy : QuoteEnginePolicy) :
    ∃ view, (book.preflightFirmQuote crypto owner key digest policy now).1 =
      .ok (some ⟨quote, view, false⟩) := by
  have hobserve : book.observeTime now = .ok { book with lastObservedTime := some now } :=
    observeTime_eq_ok.mpr ⟨hclock, rfl⟩
  obtain ⟨record, stored, hkey, hrest⟩ := id hbound
  have hobserved : Bound crypto { book with lastObservedTime := some now } owner key
      digest quote := ⟨record, stored, hkey, hrest⟩
  obtain ⟨view, final, hreplay⟩ := hobserved.replayRequest_eq_ok
    (hbook.observeTime hobserve) rfl hle hroom hkey
  refine ⟨view, ?_⟩
  have hobservedKey : readRequestBinding
      { book with lastObservedTime := some now } owner key = some record.binding := hkey
  unfold preflightFirmQuote timedWrite
  simp only [hobserve, hobservedKey, hreplay]
  rfl

theorem Bound.preflightFirmQuote_conflict {other : QuoteRequestDigest}
    (hbound : Bound crypto book owner key digest quote) (hother : other ≠ digest)
    (hclock : ∀ previous, book.lastObservedTime = some previous → previous ≤ now)
    (policy : QuoteEnginePolicy) :
    book.preflightFirmQuote crypto owner key other policy now =
      (.error (.idempotencyConflict owner key), { book with lastObservedTime := some now }) := by
  have hobserve : book.observeTime now = .ok { book with lastObservedTime := some now } :=
    observeTime_eq_ok.mpr ⟨hclock, rfl⟩
  obtain ⟨record, stored, hkey, hrow, hdigest, -⟩ := hbound
  have hobservedKey : readRequestBinding
      { book with lastObservedTime := some now } owner key = some record.binding := hkey
  have hne : ¬record.binding.semanticRequestDigest = other := by
    intro heq
    exact hother (heq.symm.trans hdigest)
  unfold preflightFirmQuote timedWrite
  simp only [hobserve, hobservedKey, replayRequest, require, if_neg hne]
  rfl

end ReservationBook

end DeadcatNode
