import DeadcatNode.ReservationCommitments

/-!
# The signing coordinator

Any number of calls of the coordinator work on one book.  A call resolves its
job against the book, lets a signer work without holding a lock, and records the
finalized settlement, or returns the one which won the race.  Each access to the
book is one atomic step; between the steps other calls and other operations of
the book run.
-/

namespace DeadcatNode

open Checked

namespace ReservationBook

variable {artifact : SignedArtifact} {record : StoredReservation} {outcome : SignedOutcome}

/-! ## Calls -/

/-- The work on a settlement between the accesses to the book: the check of the
committed bytes and the insertion of the signer's response. -/
structure PsetFinalization (Response E : Type) where
  prepare : SigningJob → Except E Unit
  finalize : ProviderIdentity → SigningJob → Response → Except E Bytes

inductive SigningFinalizationError (E : Type) where
  | provider (error : ProviderError)
  | signing (error : E)

inductive SigningRequest where
  | complete (outcome : CommitOutcome)
  | recover (action : RecoveryAction)
  | finalize (expectedJob : SigningJob)

def SigningRequest.reservationId : SigningRequest → ReservationId
  | .complete (.newlyCommitted job) | .complete (.alreadyCommitted job)
  | .recover (.signCommittedExact job) | .finalize job => job.reservationId
  | .complete (.alreadySigned artifact)
  | .recover (.replaySignedExact artifact) => artifact.reservationId

inductive SigningProgress (E : Type) where
  | resolving (expectedJob : SigningJob)
  | replaying (artifact : SignedArtifact)
  | signing (durableJob : SigningJob)
  | discarding (durableJob : SigningJob) (error : E)
  | recording (durableJob : SigningJob) (candidate : Bytes)
  | done (result : Except (SigningFinalizationError E) SignedOutcome)

def SigningRequest.start {E : Type} : SigningRequest → SigningProgress E
  | .complete (.newlyCommitted job) | .complete (.alreadyCommitted job)
  | .recover (.signCommittedExact job) | .finalize job => .resolving job
  | .complete (.alreadySigned artifact)
  | .recover (.replaySignedExact artifact) => .replaying artifact

structure SigningCall (E : Type) where
  request : SigningRequest
  progress : SigningProgress E

section Coordinator

variable {Response E : Type} (crypto : ProviderCrypto) (pset : PsetFinalization Response E)

/-- One step of a call, with the reading of its clock and the answer of the
signer. -/
def SigningProgress.advance (book : ReservationBook) (now : UnixMillis)
    (response : Except E Response) : SigningProgress E → SigningProgress E × ReservationBook
  | .resolving expectedJob =>
    match book.signingStateFor crypto expectedJob with
    | .error error => (.done (.error (.provider error)), book)
    | .ok (.signed artifact) => (.replaying artifact, book)
    | .ok (.pending job) =>
      match pset.prepare job with
      | .error error => (.done (.error (.signing error)), book)
      | .ok () => (.signing job, book)
  | .replaying artifact =>
    (.done ((book.replaySignedArtifact crypto artifact).mapError .provider), book)
  | .signing job =>
    match response with
    | .error error => (.discarding job error, book)
    | .ok response =>
      match pset.finalize book.identity job response with
      | .error error => (.discarding job error, book)
      | .ok candidate => (.recording job candidate, book)
  | .discarding job error =>
    -- Another call may have stored its settlement of the same job.
    match book.signingStateFor crypto job with
    | .error error => (.done (.error (.provider error)), book)
    | .ok (.signed artifact) => (.replaying artifact, book)
    | .ok (.pending _) => (.done (.error (.signing error)), book)
  | .recording job candidate =>
    let written := book.recordFinalizedPset crypto job candidate now
    (.done (written.1.mapError .provider), written.2)
  | .done result => (.done result, book)

/-- The book with the calls which work on it. -/
structure SigningSystem (E : Type) where
  book : ReservationBook
  calls : List (SigningCall E) := []

inductive SigningEvent (Response E : Type) where
  | operation (operation : Operation) (now : UnixMillis)
  | call (request : SigningRequest)
  | advance (index : ℕ) (now : UnixMillis) (response : Except E Response)

namespace SigningSystem

def step (system : SigningSystem E) : SigningEvent Response E → SigningSystem E
  | .operation operation now =>
    { system with book := (operation.apply crypto now system.book).2 }
  | .call request =>
    { system with calls := system.calls ++ [⟨request, request.start⟩] }
  | .advance index now response =>
    match system.calls[index]? with
    | none => system
    | some call =>
      let next := call.progress.advance crypto pset system.book now response
      ⟨next.2, system.calls.set index { call with progress := next.1 }⟩

def run (system : SigningSystem E) (events : List (SigningEvent Response E)) : SigningSystem E :=
  events.foldl (step crypto pset) system

end SigningSystem

end Coordinator

/-! ## Recorded artifacts -/

def Records (book : ReservationBook) (artifact : SignedArtifact) : Prop :=
  ∃ record intent stored, book.reservations[artifact.reservationId]? = some record ∧
    record.state = .signed intent stored ∧
    artifact = ⟨artifact.reservationId, intent.commitment, stored.digest, stored.bytes⟩

variable {crypto : ProviderCrypto} {book next : ReservationBook} {now : UnixMillis}

theorem Records.unique {other : SignedArtifact}
    (hartifact : Records book artifact) (hother : Records book other)
    (hid : artifact.reservationId = other.reservationId) : artifact = other := by
  obtain ⟨record, intent, stored, hrow, hstate, heq⟩ := hartifact
  obtain ⟨record', intent', stored', hrow', hstate', heq'⟩ := hother
  rw [← hid, hrow] at hrow'
  cases hrow'
  rw [hstate] at hstate'
  cases hstate'
  rw [heq, heq', hid]

theorem Records.of_row {intent : StoredSigningIntent} {stored : StoredSignedArtifact}
    (hrow : book.reservations[record.id]? = some record)
    (hstate : record.state = .signed intent stored)
    (hok : stored.toDomain crypto record.id intent.commitment = .ok artifact) :
    Records book artifact ∧ artifact.reservationId = record.id := by
  have hartifact := toDomain_eq_ok hok
  rw [hartifact]
  exact ⟨⟨record, intent, stored, hrow, hstate, rfl⟩, rfl⟩

theorem Timed.records (htimed : Timed crypto now book next)
    (hrecords : Records book artifact) : Records next artifact := by
  obtain ⟨record, intent, stored, hrow, hstate, heq⟩ := hrecords
  have hsteps := htimed.recordSteps artifact.reservationId
  rw [hrow] at hsteps
  obtain ⟨other, hother, hkeeps⟩ := hsteps.keeps
  have hintent : record.state.intent? = some intent := by
    rw [hstate]
    rfl
  rcases hkeeps.of_committed hintent with rfl | ⟨hcommitted, -⟩
  · exact ⟨other, intent, stored, hother, hstate, heq⟩
  · rw [hstate] at hcommitted
    cases hcommitted

/-! ## What the book returns to a call -/

theorem signingStateFor_pending {expectedJob job : SigningJob}
    (hok : book.signingStateFor crypto expectedJob = .ok (.pending job)) : job = expectedJob := by
  simp only [signingStateFor, bind_eq_ok] at hok
  obtain ⟨record, -, -, -, hok⟩ := hok
  split at hok
  · simp only [bind_eq_ok, pure_eq_ok, ExactSigningState.pending.injEq,
      ensureExactSigningJob, require_eq_ok] at hok
    obtain ⟨stored, -, -, hexact, rfl⟩ := hok
    exact hexact
  · simp only [bind_eq_ok, pure_eq_ok, reduceCtorEq, and_false, exists_false] at hok
  · cases hok
  · cases hok

theorem signingStateFor_signed {expectedJob : SigningJob}
    (hok : book.signingStateFor crypto expectedJob = .ok (.signed artifact)) :
    artifact.reservationId = expectedJob.reservationId := by
  simp only [signingStateFor, bind_eq_ok, requireReservation_eq_ok] at hok
  obtain ⟨record, ⟨-, hid, -⟩, -, -, hok⟩ := hok
  split at hok
  · simp only [bind_eq_ok, pure_eq_ok, reduceCtorEq, and_false, exists_false] at hok
  · simp only [bind_eq_ok, pure_eq_ok, ExactSigningState.signed.injEq] at hok
    obtain ⟨job, -, -, -, stored, hstored, rfl⟩ := hok
    rw [toDomain_eq_ok hstored]
    exact hid
  · cases hok
  · cases hok

theorem replaySignedArtifact_records {expected : SignedArtifact}
    (hok : book.replaySignedArtifact crypto expected = .ok outcome) :
    Records book outcome.artifact ∧ outcome.artifact.reservationId = expected.reservationId := by
  simp only [replaySignedArtifact, bind_eq_ok, requireReservation_eq_ok] at hok
  obtain ⟨record, ⟨hrow, hid, -⟩, hok⟩ := hok
  split at hok
  · next intent stored hstate =>
    simp only [bind_eq_ok, require_eq_ok, pure_eq_ok] at hok
    obtain ⟨-, -, actual, hactual, -, -, rfl⟩ := hok
    rw [← hid] at hrow ⊢
    exact Records.of_row hrow hstate hactual
  · cases hok
  · cases hok
  · cases hok

theorem recordSignedInWrite_records {reservationId : ReservationId}
    {expectedCommitment : SigningCommitment} {expectedJob : Option SigningJob}
    {signedBytes : Bytes} {replayWinner : Bool}
    (hok : book.recordSignedInWrite crypto reservationId expectedCommitment
      expectedJob signedBytes replayWinner now = .ok (.ok outcome, next)) :
    Records next outcome.artifact ∧ outcome.artifact.reservationId = reservationId := by
  simp only [recordSignedInWrite, bind_eq_ok, requireReservation_eq_ok] at hok
  obtain ⟨record, ⟨hrow, rfl, -⟩, -, -, hok⟩ := hok
  split at hok
  · next intent hcommitted =>
    simp only [bind_eq_ok, require_eq_ok, appendAudit_eq_ok, pure_eq_ok,
      Prod.mk.injEq, Except.ok.injEq] at hok
    obtain ⟨-, -, -, rfl, artifact, hartifact, after, ⟨-, rfl⟩, rfl, rfl⟩ := hok
    have hartifact := toDomain_eq_ok hartifact
    rw [hartifact]
    refine ⟨⟨record.sign intent ⟨_, signedBytes, now⟩, intent, _, ?_, rfl, rfl⟩, rfl⟩
    simp [logged, putReservation, StoredReservation.sign]
  · next intent stored hsigned =>
    simp only [bind_eq_ok, require_eq_ok, pure_eq_ok, Prod.mk.injEq, Except.ok.injEq] at hok
    obtain ⟨-, -, -, rfl, -, -, artifact, hartifact, rfl, rfl⟩ := hok
    exact Records.of_row hrow hsigned hartifact
  · cases hok
  · cases hok

theorem recordFinalizedPset_records {job : SigningJob} {candidate : Bytes}
    (hok : (book.recordFinalizedPset crypto job candidate now).1 = .ok outcome) :
    Records (book.recordFinalizedPset crypto job candidate now).2
      outcome.artifact ∧ outcome.artifact.reservationId = job.reservationId := by
  unfold recordFinalizedPset recordSignedInner at hok ⊢
  dsimp only at hok ⊢
  split at hok
  · cases hok
  · rw [if_pos rfl] at hok ⊢
    split at hok
    · cases hok
    · next artifact hsigned =>
      obtain ⟨hrecords, hid⟩ := replaySignedArtifact_records hok
      exact ⟨hrecords, hid.trans (signingStateFor_signed hsigned)⟩
    · obtain ⟨observed, -, hwrite⟩ := timedWrite_eq_ok hok
      exact recordSignedInWrite_records hwrite

/-! ## Recovery -/

def resumed (record : StoredReservation) : List RecoveryAction :=
  match record.state with
  | .committed intent => [.signCommittedExact ⟨record.id, intent.commitment,
      intent.preSignPayload, intent.fee, intent.targets⟩]
  | .signed intent stored => [.replaySignedExact ⟨record.id, intent.commitment,
      stored.digest, stored.bytes⟩]
  | .reserved | .released _ _ => []

theorem toJob_eq_ok {intent : StoredSigningIntent}
    (hvalid : intent.validate crypto record record.feePolicy = .ok ()) :
    intent.toJob record.id = .ok ⟨record.id, intent.commitment,
      intent.preSignPayload, intent.fee, intent.targets⟩ := by
  simp only [StoredSigningIntent.validate, StoredTransactionFee.toDomain,
    StoredSigningTarget.toDomain, bind_eq_ok, mapError_eq_ok, require_eq_ok,
    forM_eq_ok, pure_eq_ok] at hvalid
  obtain ⟨_, hpayload, _, ⟨-, hfee, -⟩, -, -, -, -, -, htargets, -⟩ := hvalid
  have hmapped : intent.targets.mapM StoredSigningTarget.toDomain = .ok intent.targets := by
    rw [mapM_eq_ok, List.forall₂_same]
    intro target htarget
    obtain ⟨_, ⟨-, hlocator, -⟩, -⟩ := htargets target htarget
    simp only [StoredSigningTarget.toDomain, bind_eq_ok, require_eq_ok, pure_eq_ok]
    exact ⟨(), hlocator, trivial⟩
  simp only [StoredSigningIntent.toJob, StoredTransactionFee.toDomain, bind_eq_ok,
    mapError_eq_ok, require_eq_ok, pure_eq_ok]
  exact ⟨(), hpayload, _, ⟨(), hfee, rfl⟩, _, hmapped, rfl⟩

theorem recoveryAction_eq_ok (hvalid : record.validate crypto = .ok ()) :
    recoveryAction crypto record = .ok (resumed record) := by
  have hstate := validate_state hvalid
  unfold recoveryAction resumed
  rw [hvalid, ok_bind]
  cases hcase : record.state with
  | reserved => rfl
  | released reason at' => rfl
  | committed intent =>
    rw [hcase] at hstate
    simp only [toJob_eq_ok hstate, ok_bind, pure_eq_ok]
  | signed intent stored =>
    rw [hcase] at hstate
    simp only [StoredReservationState.validate, bind_eq_ok] at hstate
    obtain ⟨-, -, artifact, hartifact, -⟩ := hstate
    simp only [hartifact, ok_bind, pure_eq_ok]
    rw [toDomain_eq_ok hartifact]

theorem Integrity.recoveryActions_eq_ok (hbook : Integrity crypto book) :
    book.recoveryActions crypto =
      .ok (book.reservations.toList.flatMap fun row => resumed row.2) := by
  have hrows : book.reservations.toList.mapM (fun row => recoveryAction crypto row.2) =
      .ok (book.reservations.toList.map fun row => resumed row.2) := by
    rw [mapM_eq_ok, List.forall₂_map_right_iff, List.forall₂_same]
    intro row hrow
    have hrecord := hbook.records row.1 row.2 (Table.mem_toList_iff.mp hrow)
    exact recoveryAction_eq_ok hrecord.valid
  unfold recoveryActions
  rw [hrows, ok_bind]
  rfl

/-! ## Every interleaving -/

section Interleavings

variable {Response E : Type} {pset : PsetFinalization Response E}

/-- What is known of a call: it works for its reservation, and what it returned
is recorded. -/
def SigningCall.Sound (book : ReservationBook) (call : SigningCall E) : Prop :=
  match call.progress with
  | .resolving job | .signing job | .discarding job _ | .recording job _ =>
    job.reservationId = call.request.reservationId
  | .replaying artifact => artifact.reservationId = call.request.reservationId
  | .done (.ok outcome) => Records book outcome.artifact ∧
      outcome.artifact.reservationId = call.request.reservationId
  | .done (.error _) => True

theorem SigningCall.sound_start (request : SigningRequest) :
    (SigningCall.mk (E := E) request request.start).Sound book := by
  cases request with
  | complete outcome => cases outcome <;> rfl
  | recover action => cases action <;> rfl
  | finalize job => rfl

theorem SigningCall.Sound.timed {call : SigningCall E}
    (hcall : call.Sound book) (htimed : Timed crypto now book next) : call.Sound next := by
  unfold Sound at hcall ⊢
  split at hcall
  · exact hcall
  · exact hcall
  · exact hcall
  · exact hcall
  · exact hcall
  · exact ⟨htimed.records hcall.1, hcall.2⟩
  · exact hcall

theorem SigningProgress.advance_timed {progress : SigningProgress E}
    {response : Except E Response} :
    Timed crypto now book (progress.advance crypto pset book now response).2 := by
  unfold advance
  split
  · split
    · exact .inl rfl
    · exact .inl rfl
    · split <;> exact .inl rfl
  · exact .inl rfl
  · split
    · exact .inl rfl
    · split <;> exact .inl rfl
  · split <;> exact .inl rfl
  · next job candidate =>
    exact (recordSignedInner_settling job.reservationId job.commitment (some job)
      candidate true).timed
  · exact .inl rfl

theorem SigningCall.Sound.advance {call : SigningCall E} (hcall : call.Sound book)
    (response : Except E Response) :
    ({ call with progress :=
      (call.progress.advance crypto pset book now response).1 } : SigningCall E).Sound
      (call.progress.advance crypto pset book now response).2 := by
  unfold Sound at hcall
  cases hprogress : call.progress with
  | resolving expectedJob =>
    simp only [hprogress] at hcall
    simp only [SigningProgress.advance]
    cases hstate : book.signingStateFor crypto expectedJob with
    | error error => trivial
    | ok state =>
      cases state with
      | pending job =>
        cases hprepare : pset.prepare job with
        | error error =>
          simp only [hprepare]
          trivial
        | ok u =>
          simp only [hprepare]
          rw [← signingStateFor_pending hstate] at hcall
          exact hcall
      | signed artifact => exact (signingStateFor_signed hstate).trans hcall
  | replaying artifact =>
    simp only [hprogress] at hcall
    simp only [SigningProgress.advance]
    cases hreplay : book.replaySignedArtifact crypto artifact with
    | error error => trivial
    | ok outcome =>
      obtain ⟨hrecords, hid⟩ := replaySignedArtifact_records hreplay
      exact ⟨hrecords, hid.trans hcall⟩
  | signing job =>
    simp only [hprogress] at hcall
    simp only [SigningProgress.advance]
    cases response with
    | error error => exact hcall
    | ok response =>
      cases hfinalize : pset.finalize book.identity job response with
      | error | ok =>
        simp only [hfinalize]
        exact hcall
  | discarding job error =>
    simp only [hprogress] at hcall
    simp only [SigningProgress.advance]
    cases hstate : book.signingStateFor crypto job with
    | error error => trivial
    | ok state =>
      cases state with
      | pending other => trivial
      | signed artifact => exact (signingStateFor_signed hstate).trans hcall
  | recording job candidate =>
    simp only [hprogress] at hcall
    simp only [SigningProgress.advance]
    cases hrecord : (book.recordFinalizedPset crypto job candidate now).1 with
    | error error => trivial
    | ok outcome =>
      obtain ⟨hrecords, hid⟩ := recordFinalizedPset_records hrecord
      exact ⟨hrecords, hid.trans hcall⟩
  | done result =>
    simp only [hprogress] at hcall
    exact hcall

namespace SigningSystem

/-- The book is consistent and every call is sound. -/
structure Invariant (crypto : ProviderCrypto) (system : SigningSystem E) : Prop where
  integrity : Integrity crypto system.book
  sound : ∀ call ∈ system.calls, call.Sound system.book

variable {system : SigningSystem E}

theorem step_timed (system : SigningSystem E) (event : SigningEvent Response E) :
    ∃ now, Timed crypto now system.book (system.step crypto pset event).book := by
  cases event with
  | operation operation now => exact ⟨now, apply_timed operation⟩
  | call request => exact ⟨0, .inl rfl⟩
  | advance index now response =>
    refine ⟨now, ?_⟩
    unfold step
    cases hcall : system.calls[index]? with
    | none =>
      simp only [hcall]
      exact .inl rfl
    | some call =>
      simp only [hcall]
      exact SigningProgress.advance_timed

theorem Invariant.step (hsystem : Invariant crypto system) (event : SigningEvent Response E) :
    Invariant crypto (system.step crypto pset event) := by
  obtain ⟨at', htimed⟩ : ∃ now, Timed crypto now system.book
      (system.step crypto pset event).book := step_timed system event
  refine ⟨htimed.integrity hsystem.integrity, ?_⟩
  -- The calls which do not take the step see the book go on.
  have hothers : ∀ call ∈ system.calls, call.Sound (system.step crypto pset event).book :=
    fun call hcall => (hsystem.sound call hcall).timed htimed
  cases event with
  | operation operation now => exact hothers
  | call request =>
    intro call hcall
    rcases List.mem_append.mp hcall with hold | hnew
    · exact hothers call hold
    · rw [List.mem_singleton.mp hnew]
      exact SigningCall.sound_start request
  | advance index now response =>
    cases hcase : system.calls[index]? with
    | none =>
      simp only [SigningSystem.step, hcase] at hothers ⊢
      exact hothers
    | some call =>
      simp only [SigningSystem.step, hcase] at hothers ⊢
      intro other hother
      rcases List.mem_or_eq_of_mem_set hother with hold | rfl
      · exact hothers other hold
      · exact (hsystem.sound call (List.mem_of_getElem? hcase)).advance response

theorem Invariant.run (hsystem : Invariant crypto system)
    (events : List (SigningEvent Response E)) :
    Invariant crypto (system.run crypto pset events) := by
  induction events generalizing system with
  | nil => exact hsystem
  | cons event rest ih => exact ih (hsystem.step event)

theorem run_records (hrecords : Records system.book artifact)
    (events : List (SigningEvent Response E)) :
    Records (system.run crypto pset events).book artifact := by
  induction events generalizing system with
  | nil => exact hrecords
  | cons event rest ih =>
    obtain ⟨now, htimed⟩ : ∃ now, Timed crypto now system.book
        (system.step crypto pset event).book := step_timed system event
    exact ih (htimed.records hrecords)

/-- One signed artifact for each reservation: in every interleaving of calls,
with any answers of the signers and any other operations of the book, what a
call returns is recorded for its reservation and is what was recorded for it at
any earlier point, so all calls for a reservation return the same artifact; and
the recovery list is exactly what is stored. -/
theorem one_signed_artifact (crypto : ProviderCrypto)
    (pset : PsetFinalization Response E) (identity : ProviderIdentity)
    (earlier later : List (SigningEvent Response E)) :
    (∀ call ∈ (run crypto pset ⟨{ identity }, []⟩ (earlier ++ later)).calls,
      ∀ outcome, call.progress = .done (.ok outcome) →
        Records (run crypto pset ⟨{ identity }, []⟩ (earlier ++ later)).book outcome.artifact ∧
        outcome.artifact.reservationId = call.request.reservationId ∧
        (∀ artifact, Records (run crypto pset ⟨{ identity }, []⟩ earlier).book artifact →
          artifact.reservationId = call.request.reservationId →
          outcome.artifact = artifact) ∧
        ∀ other ∈ (run crypto pset ⟨{ identity }, []⟩ (earlier ++ later)).calls,
          ∀ outcome', other.progress = .done (.ok outcome') →
          other.request.reservationId = call.request.reservationId →
          outcome'.artifact = outcome.artifact) ∧
    (run crypto pset ⟨{ identity }, []⟩ (earlier ++ later)).book.recoveryActions crypto =
      .ok ((run crypto pset ⟨{ identity }, []⟩
        (earlier ++ later)).book.reservations.toList.flatMap fun row => resumed row.2) := by
  have hempty : Invariant crypto (E := E) ⟨{ identity }, []⟩ :=
    ⟨.empty identity, fun call hcall => by cases hcall⟩
  have hsystem : Invariant crypto
      (run crypto pset ⟨{ identity }, []⟩ (earlier ++ later)) := hempty.run _
  have hsplit : run crypto pset ⟨{ identity }, []⟩ (earlier ++ later) =
      run crypto pset (run crypto pset ⟨{ identity }, []⟩ earlier) later :=
    List.foldl_append
  refine ⟨?_, hsystem.integrity.recoveryActions_eq_ok⟩
  intro call hcall outcome hdone
  have hsound := hsystem.sound call hcall
  simp only [SigningCall.Sound, hdone] at hsound
  refine ⟨hsound.1, hsound.2, ?_, ?_⟩
  · intro artifact hartifact hid
    have hlater : Records (run crypto pset
        (run crypto pset ⟨{ identity }, []⟩ earlier) later).book artifact :=
      run_records hartifact later
    rw [← hsplit] at hlater
    exact hsound.1.unique hlater (hsound.2.trans hid.symm)
  · intro other hother outcome' hdone' hid
    have hsound' := hsystem.sound other hother
    simp only [SigningCall.Sound, hdone'] at hsound'
    exact hsound'.1.unique hsound.1 (hsound'.2.trans (hid.trans hsound.2.symm))

/-- Two calls with different responses: the second returns what the first has
recorded. -/
example :
    let job : SigningJob := ⟨50, 3, [1, 2, 3], sampleFee.val, [⟨⟨7, 0⟩, 1, 1, 9⟩]⟩
    let pset : PsetFinalization Bytes Unit := ⟨fun _ => .ok (), fun _ _ response => .ok response⟩
    let steps := (sampleSteps.take 3).map fun step => SigningEvent.operation step.1 step.2
    ((run sampleCrypto pset ⟨{ identity := sampleIdentity }, []⟩ (steps ++
      [.call (.finalize job), .call (.finalize job), .advance 0 4 (.ok []),
        .advance 1 4 (.ok []), .advance 0 4 (.ok [4]), .advance 1 4 (.ok [5]),
        .advance 0 4 (.ok []), .advance 1 4 (.ok [])])).calls.map fun call =>
      match call.progress with
      | .done (.ok outcome) => outcome.artifact.bytes
      | _ => []) = [[4], [4]] := by
  decide +kernel

end SigningSystem

end Interleavings

end ReservationBook

end DeadcatNode
