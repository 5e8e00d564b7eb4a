import DeadcatNode.DerivedIndex
import DeadcatNode.StoreIntegrity

/-!
# Integrity of the reservation book

The tables of a consistent book: the indexes are derived from the reservations,
every record and quote is valid at the observed time, and the audit log tells
the lifecycle of every reservation.  A consistent book can be opened.
-/

namespace DeadcatNode

open Checked

variable {record : StoredReservation} {allocation : StoredAllocation}

/-! ## What a reservation contributes to the other tables -/

namespace StoredReservation

def binding (record : StoredReservation) : StoredRequestBinding :=
  ⟨record.id, record.semanticRequestDigest, record.requestDigest⟩

def allocation? (record : StoredReservation) : Option StoredAllocation :=
  match record.state with
  | .reserved => some (.reserved record.id)
  | .released _ _ => none
  | .committed intent | .signed intent _ =>
    some (.committed record.id intent.commitment)

def subjects (record : StoredReservation) : List AuditSubject :=
  match record.state with
  | .reserved => [.created record.id]
  | .released _ _ => [.created record.id, .released record.id]
  | .committed _ => [.created record.id, .committed record.id]
  | .signed _ _ => [.created record.id, .committed record.id, .signed record.id]

theorem allocation?_reservationId (hallocation : record.allocation? = some allocation) :
    allocation.reservationId = record.id := by
  unfold allocation? at hallocation
  split at hallocation
  · cases hallocation
    rfl
  · cases hallocation
  · cases hallocation
    rfl
  · cases hallocation
    rfl

def TimesWithin (record : StoredReservation) (highWaterMark : UnixMillis) : Prop :=
  record.createdAt ≤ highWaterMark ∧
  match record.state with
  | .reserved => True
  | .released reason at' => record.createdAt ≤ at' ∧ at' ≤ highWaterMark ∧
      (reason = .expired ↔ record.acceptBefore ≤ at')
  | .committed intent => record.createdAt ≤ intent.committedAt ∧
      intent.committedAt < record.acceptBefore ∧ intent.committedAt ≤ highWaterMark
  | .signed intent artifact => (record.createdAt ≤ intent.committedAt ∧
      intent.committedAt < record.acceptBefore ∧
      intent.committedAt ≤ highWaterMark) ∧
      intent.committedAt ≤ artifact.signedAt ∧ artifact.signedAt ≤ highWaterMark

theorem TimesWithin.mono {before after : UnixMillis}
    (htimes : record.TimesWithin before) (hle : before ≤ after) : record.TimesWithin after := by
  unfold TimesWithin at htimes ⊢
  obtain ⟨hcreated, hstate⟩ := htimes
  refine ⟨hcreated.trans hle, ?_⟩
  cases hcase : record.state with
  | reserved => trivial
  | released reason at' =>
    rw [hcase] at hstate
    exact ⟨hstate.1, hstate.2.1.trans hle, hstate.2.2⟩
  | committed intent =>
    rw [hcase] at hstate
    exact ⟨hstate.1, hstate.2.1, hstate.2.2.trans hle⟩
  | signed intent artifact =>
    rw [hcase] at hstate
    obtain ⟨⟨hfirst, hdeadline, hcommitted⟩, horder, hsigned⟩ := hstate
    exact ⟨⟨hfirst, hdeadline, hcommitted.trans hle⟩, horder, hsigned.trans hle⟩

end StoredReservation

theorem validateReservationTimes_eq_ok
    {lastObservedTime : Option UnixMillis} {highWaterMark : UnixMillis}
    (hmark : lastObservedTime = some highWaterMark) (htimes : record.TimesWithin highWaterMark) :
    validateReservationTimes record lastObservedTime = .ok () := by
  obtain ⟨hcreated, hstate⟩ := htimes
  simp only [validateReservationTimes, validateCommitTime, bind_eq_ok, okOr_eq_ok,
    require_eq_ok, not_or, not_lt, not_le]
  refine ⟨highWaterMark, hmark, (), hcreated, ?_⟩
  cases hcase : record.state with
  | reserved => rfl
  | released reason at' =>
    rw [hcase] at hstate
    obtain ⟨hfirst, hlast, hreason⟩ := hstate
    simp only [bind_eq_ok, require_eq_ok]
    exact ⟨(), ⟨hfirst, hlast⟩, hreason⟩
  | committed intent =>
    rw [hcase] at hstate
    simp only [require_eq_ok]
    exact hstate
  | signed intent artifact =>
    rw [hcase] at hstate
    obtain ⟨hcommit, hsigned⟩ := hstate
    simp only [bind_eq_ok, require_eq_ok]
    exact ⟨(), hcommit, hsigned⟩

namespace ReservationBook

def bindingEntries : Table.Contribution ReservationId StoredReservation RequestKey
    StoredRequestBinding where
  id := StoredReservation.id
  entry record key :=
    if key = requestKey record.owner record.idempotencyKey then some record.binding
    else none
  source _ binding := binding.reservationId
  source_entry record key binding hentry := by
    split at hentry
    · cases hentry
      rfl
    · cases hentry

def allocationEntries : Table.Contribution ReservationId StoredReservation OutPoint
    StoredAllocation where
  id := StoredReservation.id
  entry record outpoint :=
    if outpoint ∈ record.outpoints then record.allocation? else none
  source _ allocation := allocation.reservationId
  source_entry record outpoint allocation hentry := by
    split at hentry
    · exact StoredReservation.allocation?_reservationId hentry
    · cases hentry

def expirationEntries : Table.Contribution ReservationId StoredReservation ExpirationKey Unit where
  id := StoredReservation.id
  entry record key :=
    if record.state = .reserved ∧ key = expirationKey record.acceptBefore record.id
    then some () else none
  source key _ := (ofLex key).2
  source_entry record key _ hentry := by
    split at hentry
    · next hkey =>
      rw [hkey.2]
      rfl
    · cases hentry

def liveQuoteEntries : Table.Contribution ReservationId StoredReservation LiveQuoteKey Unit where
  id := StoredReservation.id
  entry record key :=
    if (record.state = .reserved ∧ record.quote ≠ none) ∧
      key = liveQuoteKey record.acceptBefore record.owner record.id
    then some () else none
  source key _ := (ofLex (ofLex key).2).2
  source_entry record key _ hentry := by
    split at hentry
    · next hkey =>
      rw [hkey.2]
      rfl
    · cases hentry

/-! ## The invariant -/

structure RecordIntegrity (crypto : ProviderCrypto) (book : ReservationBook)
    (record : StoredReservation) : Prop where
  valid : record.validate crypto = .ok ()
  policyAsset : record.feePolicy.policyAsset = book.identity.policyAsset
  requestDigest : record.requestDigest = storedRequestDigest crypto book.identity record
  times : ∃ highWaterMark, book.lastObservedTime = some highWaterMark ∧
    record.TimesWithin highWaterMark
  quote : ∀ quote, record.quote = some quote → book.validateStoredQuote crypto record quote = .ok ()
  known : ∀ outpoint ∈ record.outpoints, book.inventory[outpoint]? ≠ none
  targets : ∀ intent, record.state.intent? = some intent →
    book.signingTargetsForReservation record = .ok intent.targets

def Audited (book : ReservationBook) (subject : AuditSubject) : Prop :=
  (∃ outpoint, book.inventory[outpoint]? ≠ none ∧ subject = .imported outpoint) ∨
  ∃ (reservationId : ReservationId) (record : StoredReservation),
    book.reservations[reservationId]? = some record ∧ subject ∈ record.subjects

def auditSubjects (book : ReservationBook) : List AuditSubject :=
  book.audit.toList.map fun row => row.2.event.subject

structure AuditIntegrity (book : ReservationBook) : Prop where
  bound : book.auditSequence < 2 ^ 64
  sequence : book.audit.toList.map Prod.fst = List.range' 1 book.auditSequence
  keyed : ∀ row ∈ book.audit.toList, row.2.sequence = row.1
  ordered : (book.audit.toList.map fun row => row.2.at').Pairwise (· ≤ ·)
  observed : ∀ row ∈ book.audit.toList, ∃ highWaterMark,
    book.lastObservedTime = some highWaterMark ∧ row.2.at' ≤ highWaterMark
  matching : ∀ row ∈ book.audit.toList, book.AuditMatches row.2
  distinct : book.auditSubjects.Nodup
  complete : ∀ subject, book.Audited subject → subject ∈ book.auditSubjects

structure Integrity (crypto : ProviderCrypto) (book : ReservationBook) : Prop where
  inventoryKeyed : Table.Keyed book.inventory StoredInventoryItem.outpoint
  inventoryValid : ∀ (outpoint : OutPoint) (item : StoredInventoryItem),
    book.inventory[outpoint]? = some item → item.Valid
  recordsKeyed : Table.Keyed book.reservations StoredReservation.id
  records : ∀ (reservationId : ReservationId) (record : StoredReservation),
    book.reservations[reservationId]? = some record → RecordIntegrity crypto book record
  bindings : Table.Derived bindingEntries book.reservations book.requestKeys
  allocated : Table.Derived allocationEntries book.reservations book.allocations
  expiring : Table.Derived expirationEntries book.reservations book.expirations
  liveQuotes : Table.Derived liveQuoteEntries book.reservations book.liveQuotesByOwner
  audited : AuditIntegrity book

/-! ## A consistent book passes the checks -/

section Validation

variable {crypto : ProviderCrypto} {book : ReservationBook} {outpoint : OutPoint}

/-- What an event in the log says of its subject. -/
def Witnessed (book : ReservationBook) : AuditSubject → Prop
  | .imported outpoint => book.inventory[outpoint]? ≠ none
  | .created reservationId => book.reservations[reservationId]? ≠ none
  | .released reservationId => ∃ record ∈ book.reservations[reservationId]?,
      ∃ reason at', record.state = .released reason at'
  | .committed reservationId => ∃ record ∈ book.reservations[reservationId]?,
      record.state.intent? ≠ none
  | .signed reservationId => ∃ record ∈ book.reservations[reservationId]?,
      record.state.artifact? ≠ none

theorem AuditMatches.witnessed {entry : StoredAuditEntry}
    (hmatch : book.AuditMatches entry) : book.Witnessed entry.event.subject := by
  unfold AuditMatches at hmatch
  cases hevent : entry.event with
  | inventoryImported outpoint =>
    simp only [hevent] at hmatch
    exact hmatch
  | reservationCreated reservationId outpoints =>
    simp only [hevent] at hmatch
    obtain ⟨record, hrow, -⟩ := hmatch
    exact Option.ne_none_iff_exists'.mpr ⟨record, hrow⟩
  | reservationReleased reservationId reason =>
    simp only [hevent] at hmatch
    obtain ⟨record, hrow, hstate⟩ := hmatch
    exact ⟨record, hrow, reason, entry.at', hstate⟩
  | signingCommitted reservationId commitment =>
    simp only [hevent] at hmatch
    obtain ⟨record, hrow, intent, hintent, -⟩ := hmatch
    exact ⟨record, hrow, Option.ne_none_iff_exists'.mpr ⟨intent, hintent⟩⟩
  | signedArtifactStored reservationId digest =>
    simp only [hevent] at hmatch
    obtain ⟨record, hrow, artifact, hartifact, -⟩ := hmatch
    exact ⟨record, hrow, Option.ne_none_iff_exists'.mpr ⟨artifact, hartifact⟩⟩

theorem scanEntries_eq_ok {highWaterMark : UnixMillis}
    (hmark : book.lastObservedTime = some highWaterMark) {rows : List (ℕ × StoredAuditEntry)} :
    ∀ {scan : AuditScan}, rows.map Prod.fst = List.range' (scan.previousSequence + 1) rows.length →
      scan.previousSequence + rows.length < 2 ^ 64 →
      (∀ row ∈ rows, row.2.sequence = row.1) →
      (rows.map fun row => row.2.at').Pairwise (· ≤ ·) →
      (∀ row ∈ rows, ∀ previous ∈ scan.previousTime, previous ≤ row.2.at') →
      (∀ row ∈ rows, row.2.at' ≤ highWaterMark) →
      (∀ row ∈ rows, book.AuditMatches row.2) →
      (rows.map fun row => row.2.event.subject).Nodup →
      (∀ row ∈ rows, row.2.event.subject ∉ scan.seen) →
      ∃ final, rows.foldlM book.scanEntry scan = .ok final ∧
        final.previousSequence = scan.previousSequence + rows.length ∧
        ∀ subject, subject ∈ final.seen ↔ subject ∈ scan.seen ∨
          subject ∈ rows.map fun row => row.2.event.subject := by
  induction rows with
  | nil =>
    intro scan _ _ _ _ _ _ _ _ _
    exact ⟨scan, rfl, rfl, by simp⟩
  | cons row rest ih =>
    intro scan hkeys hbound hkeyed hordered hprevious hobserved hmatching hdistinct hfresh
    rw [List.map_cons, List.length_cons, List.range'_succ, List.cons.injEq] at hkeys
    rw [List.length_cons] at hbound
    rw [List.map_cons, List.pairwise_cons] at hordered
    rw [List.map_cons, List.nodup_cons] at hdistinct
    obtain ⟨hkey, hkeys⟩ := hkeys
    obtain ⟨hfirst, hordered⟩ := hordered
    obtain ⟨hsubject, hdistinct⟩ := hdistinct
    have hstep : book.scanEntry scan row =
        .ok ⟨row.1, some row.2.at', row.2.event.subject :: scan.seen⟩ := by
      simp only [scanEntry, bind_eq_ok, okOr_eq_ok, checkedAdd_eq_some, require_eq_ok, pure_eq_ok]
      exact ⟨_, ⟨rfl, by omega⟩, (), hkey, (), hkeyed row List.mem_cons_self, (),
        fun previous hmem => not_lt.mpr (hprevious row List.mem_cons_self previous hmem),
        highWaterMark, hmark, (), not_lt.mpr (hobserved row List.mem_cons_self), (),
        ⟨hmatching row List.mem_cons_self, hfresh row List.mem_cons_self⟩, trivial⟩
    have hrest : ∀ other ∈ rest, other ∈ row :: rest :=
      fun other hother => List.mem_cons_of_mem row hother
    have hnext := @ih ⟨row.1, some row.2.at', row.2.event.subject :: scan.seen⟩
      (by rw [hkeys, hkey]) (by simp only [hkey]; omega)
      (fun other hother => hkeyed other (hrest other hother)) hordered
      (by
        intro other hother previous hmem
        cases hmem
        exact hfirst _ (List.mem_map_of_mem hother))
      (fun other hother => hobserved other (hrest other hother))
      (fun other hother => hmatching other (hrest other hother)) hdistinct
      (by
        intro other hother hmem
        rcases List.mem_cons.mp hmem with heq | hmem
        · rw [← heq] at hsubject
          exact hsubject (List.mem_map_of_mem hother)
        · exact hfresh other (hrest other hother) hmem)
    obtain ⟨final, hfold, hlast, hseen⟩ := hnext
    refine ⟨final, ?_, ?_, ?_⟩
    · rw [List.foldlM_cons, hstep, ok_bind]
      exact hfold
    · rw [hlast, List.length_cons]
      simp only [hkey]
      omega
    · intro subject
      rw [hseen subject, List.map_cons, List.mem_cons, List.mem_cons]
      tauto

theorem AuditIntegrity.length_eq (haudit : AuditIntegrity book) :
    book.audit.toList.length = book.auditSequence := by
  have hlength := congrArg List.length haudit.sequence
  rwa [List.length_map, List.length_range'] at hlength

theorem AuditIntegrity.scan (haudit : AuditIntegrity book) :
    ∃ final, book.audit.toList.foldlM book.scanEntry {} = .ok final ∧
      final.previousSequence = book.auditSequence ∧
      ∀ subject, subject ∈ final.seen ↔ subject ∈ book.auditSubjects := by
  have hlength := haudit.length_eq
  cases hrows : book.audit.toList with
  | nil =>
    rw [hrows] at hlength
    exact ⟨{}, rfl, hlength, by simp [auditSubjects, hrows]⟩
  | cons row rest =>
    obtain ⟨highWaterMark, hmark, -⟩ := haudit.observed row (by simp [hrows])
    have hobserved : ∀ row ∈ book.audit.toList, row.2.at' ≤ highWaterMark := by
      intro row hrow
      obtain ⟨other, hother, hle⟩ := haudit.observed row hrow
      rw [hmark] at hother
      cases hother
      exact hle
    obtain ⟨final, hfold, hlast, hseen⟩ := @scanEntries_eq_ok _ _ hmark _
      ({} : AuditScan) (by rw [haudit.sequence, hlength])
      (by
        have hbound := haudit.bound
        simp only
        omega) haudit.keyed haudit.ordered
      (by simp) hobserved haudit.matching haudit.distinct (by simp)
    rw [hrows] at hfold hlast hseen
    refine ⟨final, hfold, ?_, ?_⟩
    · rw [hlast, ← hrows, hlength]
      exact Nat.zero_add _
    · intro subject
      rw [hseen subject, auditSubjects, hrows]
      simp

theorem AuditIntegrity.hasAuditShape (haudit : AuditIntegrity book) {seen : List AuditSubject}
    (hseen : ∀ subject, subject ∈ seen ↔ subject ∈ book.auditSubjects)
    (hrow : book.reservations[record.id]? = some record) : HasAuditShape record seen := by
  have hhas : ∀ subject ∈ record.subjects, subject ∈ seen := by
    intro subject hsubject
    exact (hseen subject).mpr (haudit.complete subject (.inr ⟨record.id, record, hrow, hsubject⟩))
  -- An event which is in the log agrees with the state of the record.
  have hwitnessed : ∀ subject ∈ seen, book.Witnessed subject := by
    intro subject hsubject
    obtain ⟨row, hmem, rfl⟩ := List.mem_map.mp ((hseen subject).mp hsubject)
    exact (haudit.matching row hmem).witnessed
  have hrecord : ∀ other ∈ book.reservations[record.id]?, other = record := by
    intro other hother
    rw [Option.mem_def, hrow] at hother
    exact (Option.some.inj hother).symm
  have hreleased : .released record.id ∈ seen →
      ∃ reason at', record.state = .released reason at' := by
    intro hmem
    obtain ⟨other, hother, hstate⟩ := hwitnessed _ hmem
    rwa [hrecord other hother] at hstate
  have hcommitted : .committed record.id ∈ seen → record.state.intent? ≠ none := by
    intro hmem
    obtain ⟨other, hother, hstate⟩ := hwitnessed _ hmem
    rwa [hrecord other hother] at hstate
  have hsigned : .signed record.id ∈ seen → record.state.artifact? ≠ none := by
    intro hmem
    obtain ⟨other, hother, hstate⟩ := hwitnessed _ hmem
    rwa [hrecord other hother] at hstate
  unfold HasAuditShape
  cases hstate : record.state with
  | reserved =>
    simp only [hstate, StoredReservationState.intent?,
      StoredReservationState.artifact?, reduceCtorEq, exists_false, ne_eq,
      not_true_eq_false, imp_false] at hreleased hcommitted hsigned
    exact ⟨hreleased, hcommitted, hsigned⟩
  | released reason at' =>
    simp only [hstate, StoredReservationState.intent?,
      StoredReservationState.artifact?, ne_eq, not_true_eq_false, imp_false] at hcommitted hsigned
    exact ⟨hhas _ (by simp [StoredReservation.subjects, hstate]), hcommitted, hsigned⟩
  | committed intent =>
    simp only [hstate, StoredReservationState.artifact?, reduceCtorEq,
      exists_false, ne_eq, not_true_eq_false, imp_false] at hreleased hsigned
    exact ⟨hreleased, hhas _ (by simp [StoredReservation.subjects, hstate]), hsigned⟩
  | signed intent artifact =>
    simp only [hstate, reduceCtorEq, exists_false, imp_false] at hreleased
    exact ⟨hreleased, hhas _ (by simp [StoredReservation.subjects, hstate]),
      hhas _ (by simp [StoredReservation.subjects, hstate])⟩

variable (hbook : Integrity crypto book) (hrow : book.reservations[record.id]? = some record)

include hbook

theorem Integrity.validateAuditIntegrity :
    book.validateAuditIntegrity = .ok () := by
  obtain ⟨final, hfold, hlast, hseen⟩ := hbook.audited.scan
  simp only [ReservationBook.validateAuditIntegrity, bind_eq_ok, require_eq_ok, forM_eq_ok]
  refine ⟨final, hfold, (), hlast, (), ?_, ?_⟩
  · rintro ⟨outpoint, item⟩ hmem
    have hitem := Table.mem_toList_iff.mp hmem
    exact (hseen _).mpr (hbook.audited.complete _ (.inl ⟨outpoint, by simp [hitem], rfl⟩))
  · rintro ⟨reservationId, record⟩ hmem
    have hrow := Table.mem_toList_iff.mp hmem
    obtain rfl : record.id = reservationId := hbook.recordsKeyed reservationId record hrow
    have hcreated : .created record.id ∈ record.subjects := by
      unfold StoredReservation.subjects
      cases record.state <;> simp
    exact ⟨(), (hseen _).mpr (hbook.audited.complete _
      (.inr ⟨record.id, record, hrow, hcreated⟩)), hbook.audited.hasAuditShape hseen hrow⟩

include hrow in
theorem Integrity.validateReservationRow :
    book.validateReservationRow crypto (record.id, record) = .ok () := by
  have hrecord := hbook.records record.id record hrow
  obtain ⟨highWaterMark, hmark, htimes⟩ := hrecord.times
  simp only [ReservationBook.validateReservationRow, bind_eq_ok, require_eq_ok]
  refine ⟨(), trivial, (), hrecord.valid, (), hrecord.policyAsset, (),
    hrecord.requestDigest, (), validateReservationTimes_eq_ok hmark htimes, ?_⟩
  cases hquote : record.quote with
  | none => rfl
  | some quote => exact hrecord.quote quote hquote

include hrow in
theorem Integrity.expiration_iff :
    book.expirations[expirationKey record.acceptBefore record.id]? = some () ↔
      record.state = .reserved := by
  rw [hbook.expiring]
  constructor
  · rintro ⟨other, hother, hentry⟩
    have hsame : some other = some record := hother.symm.trans hrow
    cases hsame
    by_contra hstate
    simp [expirationEntries, hstate] at hentry
  · intro hstate
    exact ⟨record, hrow, by simp [expirationEntries, hstate]⟩

include hrow in
theorem Integrity.liveQuote_iff :
    book.liveQuotesByOwner[liveQuoteKey record.acceptBefore record.owner
      record.id]? = some () ↔ record.state = .reserved ∧ record.quote ≠ none := by
  rw [hbook.liveQuotes]
  constructor
  · rintro ⟨other, hother, hentry⟩
    have hsame : some other = some record := hother.symm.trans hrow
    cases hsame
    by_contra hstate
    simp [liveQuoteEntries, hstate] at hentry
  · intro hstate
    exact ⟨record, hrow, by simp [liveQuoteEntries, hstate]⟩

include hrow in
theorem Integrity.validateDeadlineIndexes :
    book.validateDeadlineIndexes record = .ok () := by
  have hexpiration := hbook.expiration_iff hrow
  have hlive := hbook.liveQuote_iff hrow
  unfold ReservationBook.validateDeadlineIndexes
  by_cases hstate : record.state = .reserved
  · simp only [hstate, true_and, iff_true] at hexpiration hlive
    simp only [if_pos hstate, bind_eq_ok, require_eq_ok]
    refine ⟨(), by simp [hexpiration], ?_⟩
    rw [← hlive, Option.ne_none_iff_exists']
    constructor
    · rintro ⟨_, hentry⟩
      exact hentry
    · intro hentry
      exact ⟨(), hentry⟩
  · simp only [hstate, false_and, iff_false] at hexpiration hlive
    simp only [if_neg hstate, bind_eq_ok, require_eq_ok]
    exact ⟨(), Option.eq_none_iff_forall_ne_some.mpr fun _ => hexpiration,
      Option.eq_none_iff_forall_ne_some.mpr fun _ => hlive⟩

include hrow in
theorem Integrity.allocation_eq (houtpoint : outpoint ∈ record.outpoints)
    (hallocation : record.allocation? = some allocation) :
    book.allocations[outpoint]? = some allocation := by
  have hentry : allocationEntries.entry record outpoint = some allocation := by
    simp [allocationEntries, houtpoint, hallocation]
  exact hbook.allocated.row_of_entry hbook.recordsKeyed hrow hentry

theorem Integrity.allocation_record
    (hallocation : book.allocations[outpoint]? = some allocation) :
    ∃ record, book.reservations[allocation.reservationId]? = some record ∧
      outpoint ∈ record.outpoints ∧ record.allocation? = some allocation := by
  obtain ⟨record, hrow, hentry⟩ := (hbook.allocated outpoint allocation).mp hallocation
  refine ⟨record, hrow, ?_⟩
  by_cases houtpoint : outpoint ∈ record.outpoints
  · exact ⟨houtpoint, by simpa [allocationEntries, houtpoint] using hentry⟩
  · simp [allocationEntries, houtpoint] at hentry

omit hbook in
theorem signingTargets_getElem {targets : List StoredSigningTarget} {position : ℕ}
    {item : StoredInventoryItem} (htargets : book.signingTargetsForReservation record = .ok targets)
    (hposition : record.outpoints[position]? = some outpoint)
    (hitem : book.inventory[outpoint]? = some item) :
    targets[position]? = some (.fromInventory item) := by
  rw [signingTargetsForReservation, mapM_eq_ok, List.forall₂_iff_get] at htargets
  obtain ⟨hlength, hall⟩ := htargets
  obtain ⟨hlt, hget⟩ := List.getElem?_eq_some_iff.mp hposition
  have htarget := hall position hlt (hlength ▸ hlt)
  simp only [signingTarget, bind_eq_ok, okOr_eq_ok, require_eq_ok, pure_eq_ok] at htarget
  obtain ⟨other, hother, -, -, htarget⟩ := htarget
  rw [List.get_eq_getElem, hget, hitem] at hother
  cases hother
  rw [List.getElem?_eq_getElem (hlength ▸ hlt), htarget]
  rfl

include hrow in
theorem Integrity.validateOutpoint {position : OutPoint × ℕ}
    (hposition : record.outpoints[position.2]? = some position.1) :
    book.validateOutpoint record position = .ok () := by
  have hrecord := hbook.records record.id record hrow
  have hmem : position.1 ∈ record.outpoints := List.mem_of_getElem? hposition
  obtain ⟨item, hitem⟩ := Option.ne_none_iff_exists'.mp (hrecord.known _ hmem)
  simp only [ReservationBook.validateOutpoint, bind_eq_ok, okOr_eq_ok]
  refine ⟨item, hitem, ?_⟩
  -- A committed reservation also has the target of its inventory.
  have hcommitted : ∀ intent, record.state.intent? = some intent →
      record.allocation? = some (.committed record.id intent.commitment) →
      intent.targets[position.2]? = some (.fromInventory item) ∧
        book.allocations[position.1]? = some (.committed record.id intent.commitment) := by
    intro intent hintent hallocation
    exact ⟨signingTargets_getElem (hrecord.targets intent hintent) hposition hitem,
      hbook.allocation_eq hrow hmem hallocation⟩
  cases hstate : record.state with
  | reserved =>
    simp only [require_eq_ok]
    exact hbook.allocation_eq hrow hmem (by simp [StoredReservation.allocation?, hstate])
  | released reason at' =>
    simp only [require_eq_ok]
    intro other hother hid
    obtain ⟨holder, hholder, -, hallocation⟩ := hbook.allocation_record hother
    rw [hid, hrow] at hholder
    cases hholder
    simp [StoredReservation.allocation?, hstate] at hallocation
  | committed intent | signed intent =>
    simp only [bind_eq_ok, require_eq_ok]
    exact ⟨(), hcommitted intent (by rw [hstate]; rfl)
      (by simp [StoredReservation.allocation?, hstate])⟩

include hrow in
theorem Integrity.binding_eq :
    book.requestKeys[requestKey record.owner record.idempotencyKey]? = some record.binding :=
  hbook.bindings.row_of_entry hbook.recordsKeyed hrow (by simp [bindingEntries])

theorem Integrity.binding_record {key : RequestKey}
    {binding : StoredRequestBinding} (hbinding : book.requestKeys[key]? = some binding) :
    ∃ record, book.reservations[binding.reservationId]? = some record ∧
      key = requestKey record.owner record.idempotencyKey ∧ binding = record.binding := by
  obtain ⟨record, hrow, hentry⟩ := (hbook.bindings key binding).mp hbinding
  refine ⟨record, hrow, ?_⟩
  by_cases hkey : key = requestKey record.owner record.idempotencyKey
  · have hsame : some record.binding = some binding := by simpa [bindingEntries, hkey] using hentry
    exact ⟨hkey, (Option.some.inj hsame).symm⟩
  · simp [bindingEntries, hkey] at hentry

include hrow in
theorem Integrity.validateReservationIndexes :
    book.validateReservationIndexes record = .ok () := by
  simp only [ReservationBook.validateReservationIndexes, bind_eq_ok, okOr_eq_ok,
    require_eq_ok, forM_eq_ok]
  refine ⟨record.binding, hbook.binding_eq hrow, (), ⟨rfl, rfl, rfl⟩, (),
    hbook.validateDeadlineIndexes hrow, ?_⟩
  intro position hposition
  exact hbook.validateOutpoint hrow (List.mem_zipIdx_iff_getElem?.mp hposition)

theorem Integrity.validateAllocation
    (hallocation : book.allocations[outpoint]? = some allocation) :
    book.validateAllocation (outpoint, allocation) = .ok () := by
  obtain ⟨record, hrow, houtpoint, hown⟩ := hbook.allocation_record hallocation
  have hrecord := hbook.records _ record hrow
  obtain ⟨item, hitem⟩ := Option.ne_none_iff_exists'.mp (hrecord.known _ houtpoint)
  simp only [ReservationBook.validateAllocation, bind_eq_ok, okOr_eq_ok, require_eq_ok]
  refine ⟨item, hitem, record, hrow, (), ?_, ?_⟩
  · rw [hbook.inventoryKeyed outpoint item hitem]
    exact houtpoint
  · unfold StoredReservation.allocation? at hown
    cases hstate : record.state with
    | reserved =>
      rw [hstate] at hown
      cases hown
      exact hstate
    | released reason at' =>
      rw [hstate] at hown
      cases hown
    | committed intent | signed intent =>
      rw [hstate] at hown
      cases hown
      exact ⟨intent, by simp [hstate, StoredReservationState.intent?], rfl⟩

theorem Integrity.expiration_record
    {key : ExpirationKey} {u : Unit} (hkey : book.expirations[key]? = some u) :
    ∃ record : StoredReservation, book.reservations[record.id]? = some record ∧
      record.state = .reserved ∧ key = expirationKey record.acceptBefore record.id := by
  obtain ⟨record, hrow, hentry⟩ := (hbook.expiring key u).mp hkey
  by_cases hcase : record.state = .reserved ∧ key = expirationKey record.acceptBefore record.id
  · refine ⟨record, ?_, hcase⟩
    rw [hcase.2] at hrow
    exact hrow
  · simp [expirationEntries, hcase] at hentry

theorem Integrity.liveQuote_record {key : LiveQuoteKey} {u : Unit}
    (hkey : book.liveQuotesByOwner[key]? = some u) :
    ∃ record : StoredReservation, book.reservations[record.id]? = some record ∧
      (record.state = .reserved ∧ record.quote ≠ none) ∧
      key = liveQuoteKey record.acceptBefore record.owner record.id := by
  obtain ⟨record, hrow, hentry⟩ := (hbook.liveQuotes key u).mp hkey
  by_cases hcase : (record.state = .reserved ∧ record.quote ≠ none) ∧
      key = liveQuoteKey record.acceptBefore record.owner record.id
  · refine ⟨record, ?_, hcase⟩
    rw [hcase.2] at hrow
    exact hrow
  · simp [liveQuoteEntries, hcase] at hentry

theorem Integrity.validateExpiration
    {key : ExpirationKey} {u : Unit} (hkey : book.expirations[key]? = some u) :
    book.validateExpiration key = .ok () := by
  obtain ⟨record, hrow, hreserved, rfl⟩ := hbook.expiration_record hkey
  simp only [ReservationBook.validateExpiration, bind_eq_ok, okOr_eq_ok, require_eq_ok]
  exact ⟨record, hrow, hreserved, rfl⟩

theorem Integrity.validateLiveQuote {key : LiveQuoteKey} {u : Unit}
    (hkey : book.liveQuotesByOwner[key]? = some u) : book.validateLiveQuote key = .ok () := by
  obtain ⟨record, hrow, ⟨hreserved, hquote⟩, rfl⟩ := hbook.liveQuote_record hkey
  simp only [ReservationBook.validateLiveQuote, bind_eq_ok, okOr_eq_ok, require_eq_ok]
  exact ⟨record, hrow, rfl, rfl, hquote, hreserved⟩

theorem Integrity.validateStoreIntegrity :
    book.validateStoreIntegrity crypto = .ok () := by
  -- A row of a scan is a row of the table, under the key of its record.
  have hrecords : ∀ row ∈ book.reservations.toList,
      row.1 = row.2.id ∧ book.reservations[row.2.id]? = some row.2 := by
    intro row hmem
    have hrow : book.reservations[row.1]? = some row.2 := Table.mem_toList_iff.mp hmem
    have hid := hbook.recordsKeyed row.1 row.2 hrow
    rw [← hid] at hrow
    exact ⟨hid.symm, hrow⟩
  simp only [ReservationBook.validateStoreIntegrity, bind_eq_ok, forM_eq_ok]
  refine ⟨(), ?_, (), ?_, (), ?_, (), ?_, (), ?_, (), ?_, (), ?_, hbook.validateAuditIntegrity⟩
  · rintro ⟨outpoint, item⟩ hmem
    have hitem := Table.mem_toList_iff.mp hmem
    simp only [validateInventoryRow, bind_eq_ok, require_eq_ok]
    exact ⟨(), hbook.inventoryValid outpoint item hitem,
      (hbook.inventoryKeyed outpoint item hitem).symm⟩
  · intro row hmem
    obtain ⟨hid, hrow⟩ := hrecords row hmem
    have hvalid := hbook.validateReservationRow hrow
    rwa [← hid] at hvalid
  · intro row hmem
    exact hbook.validateReservationIndexes (hrecords row hmem).2
  · rintro ⟨key, binding⟩ hmem
    obtain ⟨record, hrow, hkey, hbinding⟩ := hbook.binding_record (Table.mem_toList_iff.mp hmem)
    simp only [validateBinding, bind_eq_ok, okOr_eq_ok, require_eq_ok]
    exact ⟨record, hrow, hkey, by rw [hbinding]; exact ⟨rfl, rfl⟩⟩
  · rintro ⟨outpoint, allocation⟩ hmem
    exact hbook.validateAllocation (Table.mem_toList_iff.mp hmem)
  · rintro ⟨key, u⟩ hmem
    exact hbook.validateExpiration (Table.mem_toList_iff.mp hmem)
  · rintro ⟨key, u⟩ hmem
    exact hbook.validateLiveQuote (Table.mem_toList_iff.mp hmem)

end Validation

end ReservationBook

end DeadcatNode
