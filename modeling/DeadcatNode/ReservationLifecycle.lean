import DeadcatNode.ReservationRuns

/-!
# The life of a reservation

What the operations do to a single reservation: it is created as reserved, and
either released once or committed once and then signed once, at times which
agree with its deadline.  The clock of the book only moves forward.
-/

namespace DeadcatNode

open Checked

namespace ReservationBook

variable {crypto : ProviderCrypto} {book next : ReservationBook} {now : UnixMillis}
  {record : StoredReservation}

/-! ## One reservation through a write -/

/-- One change of the row of a reservation. -/
inductive RecordStep (now : UnixMillis) :
    Option StoredReservation → Option StoredReservation → Prop where
  | same (row : Option StoredReservation) : RecordStep now row row
  | created {record : StoredReservation} (hcreated : record.createdAt = now)
      (hreserved : record.state = .reserved) : RecordStep now none (some record)
  | released {record : StoredReservation} {reason : ReleaseReason}
      (hreserved : record.state = .reserved)
      (hreason : reason = .expired ↔ record.acceptBefore ≤ now) :
      RecordStep now (some record) (some (record.release reason now))
  | committed {record : StoredReservation} {intent : StoredSigningIntent}
      (hreserved : record.state = .reserved) (hnow : intent.committedAt = now)
      (hdeadline : now < record.acceptBefore) :
      RecordStep now (some record) (some (record.commit intent))
  | signed {record : StoredReservation} {intent : StoredSigningIntent}
      {artifact : StoredSignedArtifact} (hcommitted : record.state = .committed intent)
      (hnow : artifact.signedAt = now) :
      RecordStep now (some record) (some (record.sign intent artifact))

theorem Transition.recordStep (hstep : Transition crypto now book next)
    (reservationId : ReservationId) : RecordStep now book.reservations[reservationId]?
      next.reservations[reservationId]? := by
  -- A change of one row leaves the others.
  have hput : ∀ record new : StoredReservation,
      next.reservations = book.reservations.insert record.id new →
      RecordStep now book.reservations[record.id]? (some new) →
      RecordStep now book.reservations[reservationId]?
        next.reservations[reservationId]? := by
    intro record new hreservations hrow
    rw [hreservations, Table.row_insert]
    by_cases hcase : record.id = reservationId
    · rw [if_pos hcase, ← hcase]
      exact hrow
    · rw [if_neg hcase]
      exact .same _
  cases hstep with
  | imported hvalid hnew hsequence => exact .same _
  | @created record hcreates =>
    apply hput record record rfl
    rw [hcreates.fresh]
    exact .created hcreates.created hcreates.reserved
  | @released record reason hrow hleaves hreason =>
    apply hput record (record.release reason now) rfl
    rw [hrow]
    exact .released hleaves.reserved hreason
  | @committed record preSignPayload fee targets hrow hleaves hcommits =>
    apply hput record (record.commit
      (committedIntent crypto now record preSignPayload fee targets)) rfl
    rw [hrow]
    exact .committed hleaves.reserved rfl hcommits.beforeDeadline
  | @signed record intent bytes hrow hcommitted hbytes hsequence =>
    apply hput record (record.sign intent (signedArtifactAt crypto now intent bytes)) rfl
    rw [hrow]
    exact .signed hcommitted rfl

abbrev RecordSteps (now : UnixMillis) :
    Option StoredReservation → Option StoredReservation → Prop :=
  Relation.ReflTransGen (RecordStep now)

theorem Writes.recordSteps (hwrites : Writes crypto now book next) (reservationId : ReservationId) :
    RecordSteps now book.reservations[reservationId]?
      next.reservations[reservationId]? := by
  induction hwrites with
  | refl => exact .refl
  | tail _ hstep ih => exact ih.tail (hstep.recordStep reservationId)

theorem Timed.recordSteps (htimed : Timed crypto now book next) (reservationId : ReservationId) :
    RecordSteps now book.reservations[reservationId]?
      next.reservations[reservationId]? := by
  rcases htimed with rfl | ⟨observed, hobserve, hwrites⟩
  · exact .refl
  · have hrows : observed.reservations = book.reservations := by
      rw [(observeTime_eq_ok.mp hobserve).2]
    rw [← hrows]
    exact hwrites.recordSteps reservationId

/-! ## What stays -/

/-- The terms of a reservation: all but its state. -/
def SameTerms (record other : StoredReservation) : Prop :=
  other = { record with state := other.state }

/-- What a row keeps: its terms, its release, its intent and its artifact. -/
structure Keeps (record other : StoredReservation) : Prop where
  terms : SameTerms record other
  released : ∀ reason at', record.state = .released reason at' → other.state = .released reason at'
  intent : ∀ intent, record.state.intent? = some intent → other.state.intent? = some intent
  artifact : ∀ artifact, record.state.artifact? = some artifact →
    other.state.artifact? = some artifact

theorem Keeps.refl (record : StoredReservation) : Keeps record record :=
  ⟨rfl, fun _ _ h => h, fun _ h => h, fun _ h => h⟩

theorem Keeps.trans {first second third : StoredReservation}
    (hfirst : Keeps first second) (hsecond : Keeps second third) : Keeps first third := by
  constructor
  · have hone := hfirst.terms
    have htwo := hsecond.terms
    unfold SameTerms at hone htwo ⊢
    rw [htwo, hone]
  · exact fun reason at' h => hsecond.released reason at' (hfirst.released reason at' h)
  · exact fun intent h => hsecond.intent intent (hfirst.intent intent h)
  · exact fun artifact h => hsecond.artifact artifact (hfirst.artifact artifact h)

theorem RecordStep.keeps
    {row : Option StoredReservation} (hstep : RecordStep now (some record) row) :
    ∃ other, row = some other ∧ Keeps record other := by
  cases hstep with
  | same => exact ⟨record, rfl, .refl record⟩
  | released hreserved | committed hreserved =>
    refine ⟨_, rfl, rfl, ?_, ?_, ?_⟩ <;>
      simp [hreserved, StoredReservationState.intent?, StoredReservationState.artifact?]
  | signed hcommitted hnow =>
    refine ⟨_, rfl, rfl, ?_, ?_, ?_⟩ <;>
      simp [hcommitted, StoredReservation.sign, StoredReservationState.intent?,
        StoredReservationState.artifact?]

theorem RecordSteps.keeps
    {row : Option StoredReservation} (hsteps : RecordSteps now (some record) row) :
    ∃ other, row = some other ∧ Keeps record other := by
  induction hsteps with
  | refl => exact ⟨record, rfl, .refl record⟩
  | tail _ hstep ih =>
    obtain ⟨mid, rfl, hmid⟩ := ih
    obtain ⟨other, rfl, hother⟩ := hstep.keeps
    exact ⟨other, rfl, hmid.trans hother⟩

theorem run_keeps {reservationId : ReservationId}
    (hrow : book.reservations[reservationId]? = some record) (steps : List Step) :
    ∃ other, (run crypto book steps).reservations[reservationId]? = some other ∧
      Keeps record other := by
  induction steps generalizing book record with
  | nil => exact ⟨record, hrow, .refl record⟩
  | cons step rest ih =>
    have htimed : Timed crypto step.2 book (runStep crypto book step) := apply_timed step.1
    have hsteps := htimed.recordSteps reservationId
    rw [hrow] at hsteps
    obtain ⟨mid, hmid, hkeeps⟩ := hsteps.keeps
    obtain ⟨other, hother, hlater⟩ := ih hmid
    exact ⟨other, hother, hkeeps.trans hlater⟩

end ReservationBook

end DeadcatNode
