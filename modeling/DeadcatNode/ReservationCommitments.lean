import DeadcatNode.ReservationLifecycle

/-!
# Committed inventory

The jobs which the book hands to a signer are the intents it stores, and a
stored intent stays with its allocations for the rest of the run.  Hence a
reservation is handed out for signing with one payload only, and an outpoint is
committed by one reservation only.
-/

namespace DeadcatNode

open Checked

namespace ReservationBook

variable {crypto : ProviderCrypto} {book next : ReservationBook} {now : UnixMillis}
  {intent : StoredSigningIntent} {reservationId : ReservationId} {job : SigningJob}
  {record : StoredReservation} {steps : List Step}

/-! ## Jobs which are handed out -/

def RecoveryAction.signingJob? : RecoveryAction → Option SigningJob
  | .signCommittedExact job => some job
  | .replaySignedExact _ => none

def Answer.signingJobs : Answer → List SigningJob
  | .committed (.ok (.newlyCommitted job)) => [job]
  | .committed (.ok (.alreadyCommitted job)) => [job]
  | .resolved (.ok (.pending job)) => [job]
  | .recovered (.ok actions) => actions.filterMap RecoveryAction.signingJob?
  | _ => []

def Stores (book : ReservationBook) (job : SigningJob) : Prop :=
  ∃ record intent, book.reservations[job.reservationId]? = some record ∧
    record.state.intent? = some intent ∧ intent.toJob job.reservationId = .ok job

theorem toJob_reservationId
    (hjob : intent.toJob reservationId = .ok job) : job.reservationId = reservationId := by
  simp only [StoredSigningIntent.toJob, bind_eq_ok, pure_eq_ok] at hjob
  obtain ⟨_, -, _, -, _, -, rfl⟩ := hjob
  rfl

theorem Stores.of_row (record : StoredReservation)
    (hrow : book.reservations[record.id]? = some record)
    (hintent : record.state.intent? = some intent)
    (hjob : intent.toJob record.id = .ok job) : Stores book job := by
  have hid := toJob_reservationId hjob
  refine ⟨record, intent, ?_, hintent, ?_⟩
  · rw [hid]
    exact hrow
  · rw [hid]
    exact hjob

theorem Stores.unique {other : SigningJob} (hjob : Stores book job)
    (hother : Stores book other) (hid : job.reservationId = other.reservationId) : job = other := by
  obtain ⟨record, intent, hrow, hintent, hok⟩ := hjob
  obtain ⟨record', intent', hrow', hintent', hok'⟩ := hother
  rw [← hid] at hrow' hok'
  rw [hrow] at hrow'
  cases hrow'
  rw [hintent] at hintent'
  cases hintent'
  rw [hok] at hok'
  exact Except.ok.inj hok'

theorem timedWrite_eq_ok {α : Type}
    {write : ReservationBook → Except ProviderError (Written α)} {a : α}
    (hok : (book.timedWrite now write).1 = .ok a) :
    ∃ observed, book.observeTime now = .ok observed ∧
      write observed = .ok (.ok a, (book.timedWrite now write).2) := by
  unfold timedWrite at hok ⊢
  cases hobserve : book.observeTime now with
  | error error =>
    rw [hobserve] at hok
    cases hok
  | ok observed =>
    refine ⟨observed, rfl, ?_⟩
    cases hwrite : write observed with
    | error error =>
      rw [hobserve] at hok
      simp only [hwrite] at hok
      cases hok
    | ok result =>
      rw [hobserve] at hok
      simp only [hwrite] at hok ⊢
      rw [← hok]

theorem commitBeforeSignInner_stores {access : ReservationAccess}
    {expected : Option QuoteCommitment} {preSignPayload : Bytes}
    {fee : TransactionFee} {outcome : CommitOutcome}
    (hok : (book.commitBeforeSignInner crypto access expected preSignPayload fee
      now).1 = .ok outcome)
    (hjob : outcome = .newlyCommitted job ∨ outcome = .alreadyCommitted job) :
    Stores (book.commitBeforeSignInner crypto access expected preSignPayload fee now).2 job := by
  unfold commitBeforeSignInner at hok ⊢
  split at hok
  · cases hok
  · next hpayload =>
    dsimp only
    obtain ⟨observed, -, hwrite⟩ := timedWrite_eq_ok hok
    generalize (book.timedWrite now _).2 = next at hwrite ⊢
    simp only [bind_eq_ok, requireAuthorizedReservation_eq_ok, require_eq_ok] at hwrite
    obtain ⟨record, ⟨hrow, hid, -⟩, -, -, hwrite⟩ := hwrite
    rw [← hid] at hrow
    split at hwrite
    · next intent hcommitted =>
      simp only [bind_eq_ok, pure_eq_ok, Prod.mk.injEq, Except.ok.injEq] at hwrite
      obtain ⟨_, -, stored, hstored, rfl, rfl⟩ := hwrite
      obtain ⟨rfl⟩ : stored = job := by simpa using hjob
      exact .of_row record hrow (by rw [hcommitted]; rfl) hstored
    · simp only [bind_eq_ok, pure_eq_ok, Prod.mk.injEq, Except.ok.injEq] at hwrite
      obtain ⟨_, -, artifact, -, rfl, rfl⟩ := hwrite
      simp at hjob
    · cases hwrite
    · next hreserved =>
      by_cases hdue : record.acceptBefore ≤ now
      · simp only [if_pos hdue, bind_eq_ok, pure_eq_ok, Prod.mk.injEq, reduceCtorEq,
          false_and, and_false, exists_false] at hwrite
      · simp only [if_neg hdue, bind_eq_ok, pure_eq_ok, Prod.exists, Prod.mk.injEq,
          Except.ok.injEq] at hwrite
        obtain ⟨stored, after, hcommit, rfl, rfl⟩ := hwrite
        obtain ⟨rfl⟩ : stored = job := by simpa using hjob
        obtain ⟨targets, -, -, -, rfl, hstored⟩ := commitReserved_eq_ok hreserved hcommit
        apply Stores.of_row (record.commit
          (committedIntent crypto now record preSignPayload fee.val targets)) _ rfl hstored
        simp [afterCommit, leaveReserved, logged, StoredReservation.commit]

theorem toDomain_eq_ok {stored : StoredSignedArtifact} {artifact : SignedArtifact}
    {commitment : SigningCommitment}
    (hok : stored.toDomain crypto reservationId commitment = .ok artifact) :
    artifact = ⟨reservationId, commitment, stored.digest, stored.bytes⟩ := by
  simp only [StoredSignedArtifact.toDomain, bind_eq_ok, pure_eq_ok] at hok
  obtain ⟨-, -, -, -, rfl⟩ := hok
  rfl

theorem signingStateFor_stores {expectedJob : SigningJob}
    (hok : book.signingStateFor crypto expectedJob = .ok (.pending job)) : Stores book job := by
  simp only [signingStateFor, bind_eq_ok, requireReservation_eq_ok] at hok
  obtain ⟨record, ⟨hrow, hid, -⟩, -, -, hok⟩ := hok
  rw [← hid] at hrow
  split at hok
  · next intent hcommitted =>
    simp only [bind_eq_ok, pure_eq_ok, ExactSigningState.pending.injEq] at hok
    obtain ⟨stored, hstored, -, -, rfl⟩ := hok
    exact .of_row record hrow (by rw [hcommitted]; rfl) hstored
  · simp only [bind_eq_ok, pure_eq_ok, reduceCtorEq, and_false, exists_false] at hok
  · cases hok
  · cases hok

theorem recoveryAction_stores {actions : List RecoveryAction}
    (hrow : book.reservations[record.id]? = some record)
    (hok : recoveryAction crypto record = .ok actions)
    (hjob : .signCommittedExact job ∈ actions) : Stores book job := by
  simp only [recoveryAction, bind_eq_ok] at hok
  obtain ⟨-, -, hok⟩ := hok
  split at hok
  · next intent hcommitted =>
    simp only [bind_eq_ok, pure_eq_ok] at hok
    obtain ⟨stored, hstored, rfl⟩ := hok
    obtain rfl : job = stored := by simpa using hjob
    exact .of_row record hrow (by rw [hcommitted]; rfl) hstored
  · simp only [bind_eq_ok, pure_eq_ok] at hok
    obtain ⟨artifact, -, rfl⟩ := hok
    simp at hjob
  · cases hok
    simp at hjob
  · cases hok
    simp at hjob

theorem recoveryActions_stores (hbook : Integrity crypto book) {actions : List RecoveryAction}
    (hok : book.recoveryActions crypto = .ok actions)
    (hjob : .signCommittedExact job ∈ actions) : Stores book job := by
  simp only [recoveryActions, bind_eq_ok, mapM_eq_ok, pure_eq_ok] at hok
  obtain ⟨lists, hlists, rfl⟩ := hok
  obtain ⟨list, hlist, hmem⟩ := List.mem_flatten.mp hjob
  obtain ⟨i, hi, rfl⟩ := List.getElem_of_mem hlist
  rw [List.forall₂_iff_get] at hlists
  obtain ⟨hlength, hall⟩ := hlists
  have hi' : i < book.reservations.toList.length := hlength ▸ hi
  have hrow : book.reservations[(book.reservations.toList[i]).1]? =
      some (book.reservations.toList[i]).2 :=
    Table.mem_toList_iff.mp (List.getElem_mem hi')
  have hid := hbook.recordsKeyed _ _ hrow
  rw [← hid] at hrow
  exact recoveryAction_stores hrow (hall i hi' hi) hmem

theorem apply_stores (hbook : Integrity crypto book) {operation : Operation}
    (hjob : job ∈ (operation.apply crypto now book).1.signingJobs) :
    Stores (operation.apply crypto now book).2 job := by
  -- The two ways to commit hand out the job of their outcome.
  have hcommit : ∀ (access : ReservationAccess) (expected : Option QuoteCommitment)
      (preSignPayload : Bytes) (fee : TransactionFee),
      job ∈ (Answer.committed (book.commitBeforeSignInner crypto access expected
        preSignPayload fee now).1).signingJobs →
      Stores (book.commitBeforeSignInner crypto access expected preSignPayload fee now).2 job := by
    intro access expected preSignPayload fee hmem
    cases hresult : (book.commitBeforeSignInner crypto access expected preSignPayload
        fee now).1 with
    | error error => simp [hresult, Answer.signingJobs] at hmem
    | ok outcome =>
      apply commitBeforeSignInner_stores hresult
      cases outcome with
      | newlyCommitted stored =>
        simp only [hresult, Answer.signingJobs, List.mem_singleton] at hmem
        exact .inl (by rw [hmem])
      | alreadyCommitted stored =>
        simp only [hresult, Answer.signingJobs, List.mem_singleton] at hmem
        exact .inr (by rw [hmem])
      | alreadySigned artifact => simp [hresult, Answer.signingJobs] at hmem
  cases operation with
  | commitBeforeSign access preSignPayload fee =>
    exact hcommit access none preSignPayload fee hjob
  | commitValidatedBeforeSign provider access expected preSignPayload fee =>
    simp only [Operation.apply, answered, commitValidatedBeforeSign] at hjob ⊢
    by_cases hprovider : book.identity ≠ provider
    · simp [if_pos hprovider, Answer.signingJobs] at hjob
    · rw [if_neg hprovider] at hjob ⊢
      exact hcommit access (some expected) preSignPayload fee hjob
  | signingStateFor expectedJob =>
    simp only [Operation.apply] at hjob ⊢
    cases hresult : book.signingStateFor crypto expectedJob with
    | error error => simp [hresult, Answer.signingJobs] at hjob
    | ok state =>
      cases state with
      | pending stored =>
        simp only [hresult, Answer.signingJobs, List.mem_singleton] at hjob
        rw [hjob]
        exact signingStateFor_stores hresult
      | signed artifact => simp [hresult, Answer.signingJobs] at hjob
  | recoveryActions =>
    simp only [Operation.apply] at hjob ⊢
    cases hresult : book.recoveryActions crypto with
    | error error => simp [hresult, Answer.signingJobs] at hjob
    | ok actions =>
      simp only [hresult, Answer.signingJobs, List.mem_filterMap] at hjob
      obtain ⟨action, haction, hsome⟩ := hjob
      cases action with
      | signCommittedExact stored =>
        cases hsome
        exact recoveryActions_stores hbook hresult haction
      | replaySignedExact artifact => cases hsome
  | interrupted =>
    simp only [Operation.apply] at hjob
    split at hjob <;> simp [Answer.signingJobs] at hjob
  | _ => simp [Operation.apply, answered, Answer.signingJobs] at hjob

theorem run_stores (hjob : Stores book job) (steps : List Step) :
    Stores (run crypto book steps) job := by
  obtain ⟨record, intent, hrow, hintent, hok⟩ := hjob
  obtain ⟨other, hother, hkeeps⟩ := run_keeps hrow steps
  exact ⟨other, intent, hother, hkeeps.intent intent hintent, hok⟩

theorem answers_stores (hbook : Integrity crypto book) {answer : Answer}
    (hanswer : answer ∈ answers crypto book steps) (hjob : job ∈ answer.signingJobs) :
    Stores (run crypto book steps) job := by
  induction steps generalizing book with
  | nil => cases hanswer
  | cons step rest ih =>
    rcases List.mem_cons.mp hanswer with rfl | hlater
    · exact run_stores (apply_stores hbook hjob) rest
    · exact ih ((apply_timed step.1).integrity hbook) hlater

/-! ## Committed outpoints -/

def Live (record : StoredReservation) : Prop :=
  record.state = .reserved ∨ record.state.intent? ≠ none

theorem Live.allocation (hlive : Live record) :
    ∃ allocation, record.allocation? = some allocation := by
  unfold StoredReservation.allocation?
  cases hstate : record.state with
  | reserved | committed | signed => exact ⟨_, rfl⟩
  | released reason at' =>
    simp [Live, hstate, StoredReservationState.intent?] at hlive

theorem Integrity.live_allocated (hbook : Integrity crypto book)
    (hrow : book.reservations[record.id]? = some record) (hlive : Live record)
    {outpoint : OutPoint} (houtpoint : outpoint ∈ record.outpoints) :
    ∃ allocation, book.allocations[outpoint]? = some allocation ∧
      allocation.reservationId = record.id := by
  obtain ⟨allocation, hallocation⟩ := hlive.allocation
  exact ⟨allocation, hbook.allocation_eq hrow houtpoint hallocation,
    StoredReservation.allocation?_reservationId hallocation⟩

def HeldOnce (book : ReservationBook) : Prop :=
  ∀ (reservationId otherId : ReservationId) (record other : StoredReservation)
    (outpoint : OutPoint),
    book.reservations[reservationId]? = some record →
    book.reservations[otherId]? = some other → Live record → Live other →
    outpoint ∈ record.outpoints → outpoint ∈ other.outpoints →
    reservationId = otherId ∧ ∃ allocation,
      book.allocations[outpoint]? = some allocation ∧ allocation.reservationId = reservationId

theorem Integrity.heldOnce (hbook : Integrity crypto book) : HeldOnce book := by
  intro reservationId otherId record other outpoint hrow hother hlive hotherLive
    houtpoint houtpoint'
  have hid := hbook.recordsKeyed reservationId record hrow
  have hid' := hbook.recordsKeyed otherId other hother
  subst hid hid'
  obtain ⟨allocation, hfirst, hsame⟩ := hbook.live_allocated hrow hlive houtpoint
  obtain ⟨allocation', hsecond, hsame'⟩ := hbook.live_allocated hother hotherLive houtpoint'
  rw [hfirst] at hsecond
  cases hsecond
  exact ⟨hsame.symm.trans hsame', allocation, hfirst, hsame⟩

theorem intent?_eq_some {state : StoredReservationState} (hintent : state.intent? = some intent) :
    state = .committed intent ∨ ∃ artifact, state = .signed intent artifact := by
  cases state with
  | reserved | released => cases hintent
  | committed other =>
    cases hintent
    exact .inl rfl
  | signed other artifact =>
    cases hintent
    exact .inr ⟨artifact, rfl⟩

theorem Keeps.of_committed {other : StoredReservation} (hkeeps : Keeps record other)
    (hintent : record.state.intent? = some intent) :
    other = record ∨ record.state = .committed intent ∧
      ∃ artifact, other = record.sign intent artifact := by
  have hterms := hkeeps.terms
  unfold SameTerms at hterms
  rcases intent?_eq_some (hkeeps.intent intent hintent) with hother | ⟨artifact, hother⟩
  · left
    rcases intent?_eq_some hintent with hstate | ⟨artifact, hstate⟩
    · rw [hterms, hother, ← hstate]
    · have hartifact := hkeeps.artifact artifact (by rw [hstate]; rfl)
      rw [hother] at hartifact
      cases hartifact
  · rcases intent?_eq_some hintent with hstate | ⟨first, hstate⟩
    · right
      refine ⟨hstate, artifact, ?_⟩
      rw [hterms, hother]
      rfl
    · left
      have hartifact := hkeeps.artifact first (by rw [hstate]; rfl)
      rw [hother] at hartifact
      cases hartifact
      rw [hterms, hother, ← hstate]

/-- A committed reservation of the book has at most been signed in a later one,
and keeps its allocations. -/
def KeepsCommitted (book later : ReservationBook) : Prop :=
  ∀ (reservationId : ReservationId) (record : StoredReservation)
    (intent : StoredSigningIntent),
    book.reservations[reservationId]? = some record →
    record.state.intent? = some intent →
    ∃ other, later.reservations[reservationId]? = some other ∧
      (other = record ∨ record.state = .committed intent ∧
        ∃ artifact, other = record.sign intent artifact) ∧
      ∀ outpoint ∈ record.outpoints, later.allocations[outpoint]? =
        some (.committed reservationId intent.commitment)

/-- The reservation has committed the outpoint. -/
def CommitsOutpoint (book : ReservationBook) (reservationId : ReservationId)
    (outpoint : OutPoint) : Prop :=
  ∃ record, book.reservations[reservationId]? = some record ∧
    record.state.intent? ≠ none ∧ outpoint ∈ record.outpoints

def stateAt (crypto : ProviderCrypto) (identity : ProviderIdentity)
    (steps : List Step) (count : ℕ) : ReservationBook :=
  run crypto { identity } (steps.take count)

theorem stateAt_integrity (identity : ProviderIdentity) (steps : List Step)
    (count : ℕ) : Integrity crypto (stateAt crypto identity steps count) :=
  run_integrity (.empty identity) _

theorem stateAt_keeps {identity : ProviderIdentity} {earlier later : ℕ} (hle : earlier ≤ later)
    (hrow : (stateAt crypto identity steps earlier).reservations[reservationId]? = some record) :
    ∃ other, (stateAt crypto identity steps later).reservations[reservationId]? =
      some other ∧ Keeps record other := by
  obtain ⟨count, rfl⟩ := Nat.exists_eq_add_of_le hle
  have hsplit : stateAt crypto identity steps (earlier + count) =
      run crypto (stateAt crypto identity steps earlier) ((steps.drop earlier).take count) := by
    unfold stateAt
    rw [List.take_add, run_append]
  rw [hsplit]
  exact run_keeps hrow _

theorem stateAt_keepsCommitted (identity : ProviderIdentity) (steps : List Step)
    {earlier later : ℕ} (hle : earlier ≤ later) :
    KeepsCommitted (stateAt crypto identity steps earlier)
      (stateAt crypto identity steps later) := by
  intro reservationId record intent hrow hintent
  have hbook : Integrity crypto (stateAt crypto identity steps later) :=
    stateAt_integrity identity steps later
  obtain ⟨other, hother, hkeeps⟩ := stateAt_keeps hle hrow
  refine ⟨other, hother, hkeeps.of_committed hintent, ?_⟩
  intro outpoint houtpoint
  have hid := hbook.recordsKeyed reservationId other hother
  have houtpoints : other.outpoints = record.outpoints := by rw [hkeeps.terms]
  have hallocation : other.allocation? = some (.committed reservationId intent.commitment) := by
    unfold StoredReservation.allocation?
    rcases intent?_eq_some (hkeeps.intent intent hintent) with hstate | ⟨_, hstate⟩
    · rw [hstate, hid]
    · rw [hstate, hid]
  subst hid
  exact hbook.allocation_eq hother (houtpoints ▸ houtpoint) hallocation

theorem stateAt_commitsOutpoint {identity : ProviderIdentity}
    {earlier later : ℕ} (hle : earlier ≤ later) {outpoint : OutPoint}
    (hcommits : CommitsOutpoint (stateAt crypto identity steps earlier) reservationId outpoint) :
    CommitsOutpoint (stateAt crypto identity steps later) reservationId outpoint := by
  obtain ⟨record, hrow, hintent, houtpoint⟩ := hcommits
  obtain ⟨intent, hintent⟩ := Option.ne_none_iff_exists'.mp hintent
  obtain ⟨other, hother, hkeeps⟩ := stateAt_keeps hle hrow
  refine ⟨other, hother, by simp [hkeeps.intent intent hintent], ?_⟩
  rw [hkeeps.terms]
  exact houtpoint

/-- Inventory is committed at most once: at every point of every run an
outpoint is held by at most one live reservation; a committed reservation may
only be signed and keeps its intent and its allocations; one payload is handed
out for a reservation; and an outpoint is committed by one reservation. -/
theorem inventory_committed_once (crypto : ProviderCrypto)
    (identity : ProviderIdentity) (steps : List Step) :
    (∀ count, HeldOnce (stateAt crypto identity steps count)) ∧
    (∀ earlier later, earlier ≤ later → KeepsCommitted (stateAt crypto identity steps earlier)
        (stateAt crypto identity steps later)) ∧
    (∀ answer ∈ answers crypto { identity } steps, ∀ other ∈ answers crypto { identity } steps,
      ∀ job ∈ answer.signingJobs, ∀ job' ∈ other.signingJobs,
      job.reservationId = job'.reservationId → job = job') ∧
    (∀ count later reservationId otherId outpoint,
      CommitsOutpoint (stateAt crypto identity steps count) reservationId outpoint →
      CommitsOutpoint (stateAt crypto identity steps later) otherId outpoint →
      reservationId = otherId) := by
  refine ⟨?_, ?_, ?_, ?_⟩
  · intro count
    exact (stateAt_integrity identity steps count).heldOnce
  · intro earlier later hle
    exact stateAt_keepsCommitted identity steps hle
  · intro answer hanswer other hother job hjob job' hjob' hid
    have hempty : Integrity crypto { identity } := .empty identity
    exact (answers_stores hempty hanswer hjob).unique (answers_stores hempty hother hjob') hid
  · intro count later reservationId otherId outpoint hcommits hcommits'
    -- Both reservations are still committed at the later of the two points.
    obtain ⟨record, hrow, hintent, houtpoint⟩ :=
      stateAt_commitsOutpoint (le_max_left count later) hcommits
    obtain ⟨other, hother, hintent', houtpoint'⟩ :=
      stateAt_commitsOutpoint (le_max_right count later) hcommits'
    exact ((stateAt_integrity identity steps (max count later)).heldOnce
      reservationId otherId record other outpoint hrow hother (.inr hintent)
      (.inr hintent') houtpoint houtpoint').1

end ReservationBook

end DeadcatNode
