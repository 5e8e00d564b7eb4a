import DeadcatNode.ReservationCommitments

/-!
# Deadlines of reservations

A reservation is committed before its deadline, expires at or after it, and is
cancelled or rejected before it, by the time which the operation observed.  That
time is persisted, and no operation goes behind it.
-/

namespace DeadcatNode

open Checked

namespace ReservationBook

variable {crypto : ProviderCrypto} {book next : ReservationBook} {now : UnixMillis}
  {highWaterMark : UnixMillis} {record : StoredReservation}

/-! ## The clock -/

theorem Writes.lastObservedTime_eq (hwrites : Writes crypto now book next) :
    next.lastObservedTime = book.lastObservedTime := by
  induction hwrites with
  | refl => rfl
  | tail _ hstep ih => exact hstep.lastObservedTime_eq.trans ih

theorem Timed.observed (htimed : Timed crypto now book next) :
    next = book ∨ next.lastObservedTime = some now ∧
      ∀ before, book.lastObservedTime = some before → before ≤ now := by
  rcases htimed with hsame | ⟨observed, hobserve, hwrites⟩
  · exact .inl hsame
  · obtain ⟨hle, hobserved⟩ := observeTime_eq_ok.mp hobserve
    refine .inr ⟨?_, hle⟩
    rw [hwrites.lastObservedTime_eq, hobserved]

def Operation.readsClock : Operation → Bool
  | .signingStateFor _ | .replaySignedArtifact _ | .recoveryActions
  | .interrupted | .reopen _ => false
  | _ => true

def Answer.failed : Answer → Bool
  | .imported (.error _) | .replayed (.error _) | .reserved (.error _)
  | .released (.error _) | .expired (.error _) | .committed (.error _)
  | .resolved (.error _) | .signed (.error _) | .recovered (.error _)
  | .opened (.error _) => true
  | _ => false

/-- The operation returns before it reads its clock: there is nothing to expire,
or the settlement has already been signed and the stored artifact is replayed. -/
def Operation.ReturnsEarly (crypto : ProviderCrypto) (book : ReservationBook)
    (operation : Operation) (answer : Answer) : Prop :=
  operation = .expireDue 0 ∧ answer = .expired (.ok []) ∨
  ∃ job candidate artifact, operation = .recordFinalizedPset job candidate ∧
    book.signingStateFor crypto job = .ok (.signed artifact) ∧
    answer = .signed (.ok ⟨artifact, false⟩)

theorem replaySignedArtifact_of_signed {job : SigningJob} {artifact : SignedArtifact}
    (hsigned : book.signingStateFor crypto job = .ok (.signed artifact)) :
    book.replaySignedArtifact crypto artifact = .ok ⟨artifact, false⟩ := by
  simp only [signingStateFor, bind_eq_ok, requireReservation_eq_ok] at hsigned
  obtain ⟨record, hrow, _, hallocated, hsigned⟩ := hsigned
  split at hsigned
  · simp only [bind_eq_ok, pure_eq_ok, reduceCtorEq, and_false, exists_false] at hsigned
  · next intent stored hstate =>
    simp only [StoredSigningIntent.toJob, bind_eq_ok, pure_eq_ok,
      ExactSigningState.signed.injEq] at hsigned
    obtain ⟨_, ⟨_, -, _, -, _, -, rfl⟩, _, -, _, hactual, rfl⟩ := hsigned
    obtain rfl := toDomain_eq_ok hactual
    simp only [checkPermanentAllocations, hstate] at hallocated
    simp only [replaySignedArtifact, bind_eq_ok, requireReservation_eq_ok]
    refine ⟨record, ⟨hrow.2.1 ▸ hrow.1, rfl, hrow.2.2⟩, ?_⟩
    simp only [hstate, bind_eq_ok, require_eq_ok]
    exact ⟨_, hallocated, _, hactual, (), rfl, rfl⟩
  · cases hsigned
  · cases hsigned

theorem recordSignedInner_regressed (crypto : ProviderCrypto) (reservationId : ReservationId)
    (expectedCommitment : SigningCommitment) (expectedJob : Option SigningJob)
    (signedBytes : Bytes) (replayWinner : Bool)
    (hmark : book.lastObservedTime = some highWaterMark) (hregressed : now < highWaterMark) :
    ((book.recordSignedInner crypto reservationId expectedCommitment expectedJob
      signedBytes replayWinner now).2 = book) ∧
    ((∃ error, (book.recordSignedInner crypto reservationId expectedCommitment
      expectedJob signedBytes replayWinner now).1 = .error error) ∨
      ∃ job artifact, replayWinner = true ∧ expectedJob = some job ∧
        book.signingStateFor crypto job = .ok (.signed artifact) ∧
        (book.recordSignedInner crypto reservationId expectedCommitment expectedJob signedBytes
          replayWinner now).1 = .ok ⟨artifact, false⟩) := by
  unfold recordSignedInner
  dsimp only
  split
  · exact ⟨rfl, .inl ⟨_, rfl⟩⟩
  · rw [timedWrite_regressed hmark hregressed]
    split
    · next hreplay =>
      split
      · exact ⟨rfl, .inl ⟨_, rfl⟩⟩
      · next job =>
        split
        · exact ⟨rfl, .inl ⟨_, rfl⟩⟩
        · next artifact hsigned =>
          exact ⟨rfl, .inr ⟨job, artifact, hreplay, rfl, hsigned,
            replaySignedArtifact_of_signed hsigned⟩⟩
        · exact ⟨rfl, .inl ⟨_, rfl⟩⟩
    · exact ⟨rfl, .inl ⟨_, rfl⟩⟩

theorem apply_regressed {operation : Operation}
    (hmark : book.lastObservedTime = some highWaterMark) (hregressed : now < highWaterMark) :
    (operation.apply crypto now book).2 = book ∧ (operation.readsClock = true →
        (operation.apply crypto now book).1.failed = true ∨
          operation.ReturnsEarly crypto book (operation.apply crypto now book).1) := by
  cases operation with
  | preflightFirmQuote | replayFirmQuote | cancel | rejectUncommitted =>
    simp only [Operation.apply, answered, preflightFirmQuote, replayFirmQuote, cancel,
      rejectUncommitted]
    rw [timedWrite_regressed hmark hregressed]
    simp [Answer.failed]
  | importInventoryBatch | reserveFirmQuoteFromSnapshot | commitBeforeSign =>
    simp only [Operation.apply, answered, importInventoryBatch, reserveFirmQuoteFromSnapshot,
      commitBeforeSignInner]
    split
    · simp [Answer.failed]
    · rw [timedWrite_regressed hmark hregressed]
      simp [Answer.failed]
  | expireDue limit =>
    simp only [Operation.apply, answered, expireDue]
    by_cases hlimit : limit = 0
    · rw [if_pos hlimit]
      exact ⟨rfl, fun _ => .inr (.inl ⟨by rw [hlimit], rfl⟩)⟩
    · rw [if_neg hlimit, timedWrite_regressed hmark hregressed]
      simp [Answer.failed]
  | commitValidatedBeforeSign =>
    simp only [Operation.apply, answered, commitValidatedBeforeSign, commitBeforeSignInner]
    split
    · simp [Answer.failed]
    · split
      · simp [Answer.failed]
      · rw [timedWrite_regressed hmark hregressed]
        simp [Answer.failed]
  | recordSigned reservationId commitment bytes =>
    have hregress := recordSignedInner_regressed crypto reservationId commitment
      none bytes false hmark hregressed
    obtain ⟨hbook, ⟨error, herror⟩ | ⟨job, artifact, hreplay, -⟩⟩ := hregress
    · refine ⟨hbook, fun _ => .inl ?_⟩
      simp [Operation.apply, answered, herror, Answer.failed]
    · cases hreplay
  | recordFinalizedPset job candidate =>
    have hregress := recordSignedInner_regressed crypto
      job.reservationId job.commitment (some job) candidate true hmark hregressed
    obtain ⟨hbook, ⟨error, herror⟩ | ⟨other, artifact, -, hjob, hsigned, hreplayed⟩⟩ := hregress
    · refine ⟨hbook, fun _ => .inl ?_⟩
      simp [Operation.apply, answered, recordFinalizedPset, herror, Answer.failed]
    · cases hjob
      exact ⟨hbook, fun _ => .inr (.inr ⟨job, candidate, artifact, rfl, hsigned,
        congrArg Answer.signed hreplayed⟩)⟩
  | interrupted =>
    simp only [Operation.apply]
    cases hobserve : book.observeTime now with
    | error error => exact ⟨rfl, fun h => by cases h⟩
    | ok observed =>
      have hle := (observeTime_eq_ok.mp hobserve).1 highWaterMark hmark
      exact absurd hregressed (not_lt.mpr hle)
  | signingStateFor | replaySignedArtifact | recoveryActions | reopen =>
    exact ⟨rfl, fun h => by cases h⟩

/-! ## Entering a state -/

theorem RecordSteps.enters_committed {row : Option StoredReservation} {intent : StoredSigningIntent}
    (hsteps : RecordSteps now row (some record)) (hintent : record.state.intent? = some intent) :
    (∃ before, row = some before ∧ before.state.intent? = some intent) ∨
      intent.committedAt = now ∧ now < record.acceptBefore := by
  generalize hlast : some record = last at hsteps
  induction hsteps generalizing record with
  | refl => exact .inl ⟨record, hlast.symm, hintent⟩
  | tail _ hstep ih =>
    cases hstep with
    | same => exact ih hintent hlast
    | created hcreated hreserved =>
      cases hlast
      rw [hreserved] at hintent
      cases hintent
    | released hreserved hreason =>
      cases hlast
      cases hintent
    | committed hreserved hnow hdeadline =>
      cases hlast
      cases hintent
      exact .inr ⟨hnow, hdeadline⟩
    | @signed before _ artifact hcommitted hnow =>
      cases hlast
      cases hintent
      have hbefore : before.state.intent? = some intent := by
        rw [hcommitted]
        rfl
      exact @ih before hbefore rfl

theorem RecordSteps.enters_released {row : Option StoredReservation}
    {reason : ReleaseReason} {at' : UnixMillis}
    (hsteps : RecordSteps now row (some record)) (hreleased : record.state = .released reason at') :
    (∃ before, row = some before ∧ before.state = .released reason at') ∨
      at' = now ∧ (reason = .expired ↔ record.acceptBefore ≤ now) := by
  generalize hlast : some record = last at hsteps
  induction hsteps generalizing record with
  | refl => exact .inl ⟨record, hlast.symm, hreleased⟩
  | tail _ hstep ih =>
    cases hstep with
    | same => exact ih hreleased hlast
    | created hcreated hreserved =>
      cases hlast
      rw [hreserved] at hreleased
      cases hreleased
    | released hreserved hreason =>
      cases hlast
      cases hreleased
      exact .inr ⟨rfl, hreason⟩
    | committed | signed =>
      cases hlast
      cases hreleased

inductive Fate where
  | committed
  | expired
  | cancelled
  | rejected
deriving DecidableEq

def fate? (record : StoredReservation) : Option Fate :=
  match record.state with
  | .reserved => none
  | .released .expired _ => some .expired
  | .released .clientCancelled _ => some .cancelled
  | .released .providerRejected _ => some .rejected
  | .committed _ | .signed _ _ => some .committed

theorem Keeps.fate {other : StoredReservation} (hkeeps : Keeps record other)
    {fate : Fate} (hfate : fate? record = some fate) : fate? other = some fate := by
  unfold fate? at hfate ⊢
  cases hstate : record.state with
  | reserved => simp [hstate] at hfate
  | released reason at' =>
    rw [hkeeps.released reason at' hstate, ← hstate]
    exact hfate
  | committed intent | signed intent artifact =>
    rw [hstate] at hfate
    cases hfate
    rcases intent?_eq_some (hkeeps.intent intent (by rw [hstate]; rfl)) with
      hother | ⟨artifact, hother⟩
    · rw [hother]
    · rw [hother]

def Ends (book : ReservationBook) (reservationId : ReservationId) (fate : Fate) : Prop :=
  ∃ record, book.reservations[reservationId]? = some record ∧ fate? record = some fate

/-- How one operation treats deadlines and the clock. -/
structure Disciplined (now : UnixMillis) (book next : ReservationBook) : Prop where
  commits : ∀ (reservationId : ReservationId) (record : StoredReservation)
    (intent : StoredSigningIntent),
    next.reservations[reservationId]? = some record →
    record.state.intent? = some intent →
    (∃ before, book.reservations[reservationId]? = some before ∧
      before.state.intent? = some intent) ∨
    next.lastObservedTime = some now ∧ intent.committedAt = now ∧ now < record.acceptBefore
  releases : ∀ (reservationId : ReservationId) (record : StoredReservation)
    (reason : ReleaseReason) (at' : UnixMillis),
    next.reservations[reservationId]? = some record →
    record.state = .released reason at' →
    (∃ before, book.reservations[reservationId]? = some before ∧
      before.state = .released reason at') ∨
    next.lastObservedTime = some now ∧ at' = now ∧ (reason = .expired ↔ record.acceptBefore ≤ now)
  clock : ∀ before, book.lastObservedTime = some before →
    ∃ after, next.lastObservedTime = some after ∧ before ≤ after

theorem Timed.disciplined (htimed : Timed crypto now book next) : Disciplined now book next := by
  rcases htimed.observed with rfl | ⟨hobserved, hle⟩
  · exact ⟨fun _ record _ hrow hintent => .inl ⟨record, hrow, hintent⟩,
      fun _ record _ _ hrow hreleased => .inl ⟨record, hrow, hreleased⟩,
      fun before hbefore => ⟨before, hbefore, le_rfl⟩⟩
  · constructor
    · intro reservationId record intent hrow hintent
      have hsteps := htimed.recordSteps reservationId
      rw [hrow] at hsteps
      rcases hsteps.enters_committed hintent with hbefore | hnow
      · exact .inl hbefore
      · exact .inr ⟨hobserved, hnow⟩
    · intro reservationId record reason at' hrow hreleased
      have hsteps := htimed.recordSteps reservationId
      rw [hrow] at hsteps
      rcases hsteps.enters_released hreleased with hbefore | hnow
      · exact .inl hbefore
      · exact .inr ⟨hobserved, hnow⟩
    · intro before hbefore
      exact ⟨now, hobserved, hle before hbefore⟩

/-- Deadline discipline of every run: operations commit, expire, cancel and
reject on the right side of the deadline and never move the clock back; behind
the high-water mark they change nothing and fail, unless they return before the
clock is read, with nothing expired or with the stored artifact; and a reservation
ends in one way only. -/
theorem run_disciplined (crypto : ProviderCrypto) (identity : ProviderIdentity)
    (steps : List Step) :
    (∀ operation now, Disciplined now (run crypto { identity } steps)
      (run crypto { identity } (steps ++ [(operation, now)]))) ∧
    (∀ operation now highWaterMark,
      (run crypto { identity } steps).lastObservedTime = some highWaterMark →
      now < highWaterMark →
      run crypto { identity } (steps ++ [(operation, now)]) = run crypto { identity } steps ∧
      (operation.readsClock = true →
        (operation.apply crypto now (run crypto { identity } steps)).1.failed = true ∨
          operation.ReturnsEarly crypto (run crypto { identity } steps)
            (operation.apply crypto now (run crypto { identity } steps)).1)) ∧
    (∀ earlier later reservationId fate fate',
      Ends (stateAt crypto identity steps earlier) reservationId fate →
      Ends (stateAt crypto identity steps later) reservationId fate' → fate = fate') := by
  have hlast : ∀ operation now, run crypto { identity } (steps ++ [(operation, now)]) =
        (operation.apply crypto now (run crypto { identity } steps)).2 := by
    intro operation now
    rw [run_append]
    rfl
  refine ⟨?_, ?_, ?_⟩
  · intro operation now
    rw [hlast]
    exact (apply_timed operation).disciplined
  · intro operation now highWaterMark hmark hregressed
    rw [hlast]
    exact apply_regressed hmark hregressed
  · rintro earlier later reservationId fate fate' ⟨record, hrow, hfate⟩ ⟨other, hother, hfate'⟩
    -- Both are the fate of the reservation at the later of the two points.
    obtain ⟨first, hfirst, hkeeps⟩ := stateAt_keeps (le_max_left earlier later) hrow
    obtain ⟨second, hsecond, hkeeps'⟩ := stateAt_keeps (le_max_right earlier later) hother
    rw [hfirst] at hsecond
    cases hsecond
    have hone := hkeeps.fate hfate
    rw [hkeeps'.fate hfate'] at hone
    exact (Option.some.inj hone).symm

/-- With nothing to expire, or with a settlement already signed, the operation
succeeds at a time behind the high-water mark. -/
theorem expireDue_zero_behind : (run sampleCrypto { identity := sampleIdentity }
      [(.expireDue 1, 1)]).lastObservedTime = some 1 ∧
    answers sampleCrypto { identity := sampleIdentity }
      [(.expireDue 1, 1), (.expireDue 0, 0)] = [.expired (.ok []), .expired (.ok [])] ∧
    let signed := run sampleCrypto { identity := sampleIdentity } sampleSteps
    signed.lastObservedTime = some 4 ∧ (signed.recordFinalizedPset sampleCrypto
      ⟨50, 3, [1, 2, 3], sampleFee.val, [⟨⟨7, 0⟩, 1, 1, 9⟩]⟩ [9] 0).1.toOption =
        some ⟨⟨50, 3, 2, [4, 5]⟩, false⟩ := by
  refine ⟨rfl, rfl, ?_, ?_⟩ <;> decide +kernel

end ReservationBook

end DeadcatNode
