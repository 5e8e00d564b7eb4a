import DeadcatNode.BookIntegrity
import DeadcatNode.ReservationTransitions

/-!
# The operations keep the book consistent

Each of the five changes of the book preserves its integrity, so every timed
operation does, whether it succeeds, fails or stops after the observation of the
time.
-/

namespace DeadcatNode

open Checked

namespace ReservationBook

variable {crypto : ProviderCrypto} {book next mid : ReservationBook} {now : UnixMillis}
  {record : StoredReservation} {targets : List StoredSigningTarget}

/-! ## Growing books -/

/-- The identity stays, inventory is added and time goes on. -/
structure Extends (book next : ReservationBook) : Prop where
  identity : next.identity = book.identity
  inventory : ∀ (outpoint : OutPoint) (item : StoredInventoryItem),
    book.inventory[outpoint]? = some item → next.inventory[outpoint]? = some item
  time : ∀ before, book.lastObservedTime = some before →
    ∃ after, next.lastObservedTime = some after ∧ before ≤ after

theorem Extends.of_eq (hidentity : next.identity = book.identity)
    (hinventory : next.inventory = book.inventory)
    (htime : next.lastObservedTime = book.lastObservedTime) : Extends book next := by
  constructor
  · exact hidentity
  · intro outpoint item hitem
    rw [hinventory]
    exact hitem
  · intro before hbefore
    exact ⟨before, htime.trans hbefore, le_rfl⟩

theorem validateStoredQuote_extend {quote : StoredFirmQuote} (hextends : Extends book next)
    (hquote : book.validateStoredQuote crypto record quote = .ok ()) :
    next.validateStoredQuote crypto record quote = .ok () := by
  simp only [validateStoredQuote, bind_eq_ok, require_eq_ok] at hquote ⊢
  obtain ⟨domain, hdomain, selected, hfold, hselected⟩ := hquote
  refine ⟨domain, ?_, selected, ?_, hselected⟩
  · rw [hextends.identity]
    exact hdomain
  · apply foldlM_commute id _ _ hfold
    intro total input total' hstep
    simp only [addDurableAmount, bind_eq_ok, okOr_eq_ok] at hstep ⊢
    obtain ⟨item, hitem, hrest⟩ := hstep
    exact ⟨item, hextends.inventory _ _ hitem, hrest⟩

theorem signingTargets_extend (hextends : Extends book next)
    (htargets : book.signingTargetsForReservation record = .ok targets) :
    next.signingTargetsForReservation record = .ok targets := by
  simp only [signingTargetsForReservation, mapM_eq_ok] at htargets ⊢
  apply htargets.imp
  intro outpoint target htarget
  simp only [signingTarget, bind_eq_ok, okOr_eq_ok] at htarget ⊢
  obtain ⟨item, hitem, hrest⟩ := htarget
  exact ⟨item, hextends.inventory _ _ hitem, hrest⟩

theorem RecordIntegrity.extend (hrecord : RecordIntegrity crypto book record)
    (hextends : Extends book next) : RecordIntegrity crypto next record := by
  constructor
  · exact hrecord.valid
  · rw [hextends.identity]
    exact hrecord.policyAsset
  · rw [hextends.identity]
    exact hrecord.requestDigest
  · obtain ⟨before, hbefore, htimes⟩ := hrecord.times
    obtain ⟨after, hafter, hle⟩ := hextends.time before hbefore
    exact ⟨after, hafter, htimes.mono hle⟩
  · intro quote hquote
    exact validateStoredQuote_extend hextends (hrecord.quote quote hquote)
  · intro outpoint houtpoint
    obtain ⟨item, hitem⟩ := Option.ne_none_iff_exists'.mp (hrecord.known outpoint houtpoint)
    simp [hextends.inventory outpoint item hitem]
  · intro intent hintent
    exact signingTargets_extend hextends (hrecord.targets intent hintent)

theorem validate_state (hvalid : record.validate crypto = .ok ()) :
    record.state.validate crypto record record.feePolicy = .ok () := by
  simp only [StoredReservation.validate, StoredFeePolicy.toDomain, bind_eq_ok,
    require_eq_ok, pure_eq_ok] at hvalid
  obtain ⟨_, -, _, -, _, -, _, -, _, -, _, ⟨_, -, rfl⟩, _, -, hstate⟩ := hvalid
  exact hstate

theorem validate_intent {intent : StoredSigningIntent}
    (hpayload : validateSettlementBytes intent.preSignPayload = .ok ()) (hfee : intent.fee.Valid)
    (hpolicy : record.feePolicy.validate intent.fee = .ok ())
    (houtpoints : intent.targets.map StoredSigningTarget.outpoint = record.outpoints)
    (hlocators : ∀ target ∈ intent.targets, target.walletLocator ≠ 0)
    (hcommitment : signingCommitment crypto record intent.preSignPayload intent.fee
      intent.targets = intent.commitment) :
    intent.validate crypto record record.feePolicy = .ok () := by
  simp only [StoredSigningIntent.validate, StoredTransactionFee.toDomain,
    StoredSigningTarget.toDomain, bind_eq_ok, mapError_eq_ok, require_eq_ok, forM_eq_ok, pure_eq_ok]
  refine ⟨(), hpayload, intent.fee, ⟨(), hfee, rfl⟩, (), hpolicy, (), houtpoints, (),
    ?_, hcommitment⟩
  intro target htarget
  exact ⟨target, ⟨(), hlocators target htarget, rfl⟩, trivial⟩

theorem RecordIntegrity.withState (hrecord : RecordIntegrity crypto book record)
    (state : StoredReservationState)
    (hvalid : state.validate crypto record record.feePolicy = .ok ())
    (htimes : ∃ highWaterMark, book.lastObservedTime = some highWaterMark ∧
      ({ record with state } : StoredReservation).TimesWithin highWaterMark)
    (htargets : ∀ intent, state.intent? = some intent →
      book.signingTargetsForReservation record = .ok intent.targets) :
    RecordIntegrity crypto book { record with state } := by
  constructor
  · have hold := hrecord.valid
    simp only [StoredReservation.validate, StoredFeePolicy.toDomain, bind_eq_ok,
      require_eq_ok, pure_eq_ok] at hold ⊢
    obtain ⟨_, hid, _, hcount, _, hdeadline, _, houtpoints, _, hsorted, policy,
      ⟨_, hpolicy, rfl⟩, _, hlegacy, -⟩ := hold
    refine ⟨(), hid, (), hcount, (), hdeadline, (), houtpoints, (), hsorted, _,
      ⟨(), hpolicy, rfl⟩, (), hlegacy, ?_⟩
    cases state <;> exact hvalid
  · exact hrecord.policyAsset
  · exact hrecord.requestDigest
  · exact htimes
  · exact hrecord.quote
  · exact hrecord.known
  · exact htargets

/-! ## The audit log -/

theorem AuditIntegrity.key_le (haudit : AuditIntegrity book) {sequence : ℕ}
    {entry : StoredAuditEntry} (hrow : book.audit[sequence]? = some entry) :
    sequence < book.auditSequence + 1 := by
  have hmem : sequence ∈ book.audit.toList.map Prod.fst :=
    List.mem_map_of_mem (f := Prod.fst) (Table.mem_toList_iff.mpr hrow)
  rw [haudit.sequence, List.mem_range'_1] at hmem
  omega

theorem AuditIntegrity.log (haudit : AuditIntegrity book)
    (mid : ReservationBook) (event : StoredAuditEvent) (hnow : book.lastObservedTime = some now)
    (hsequence : book.auditSequence + 1 < 2 ^ 64) (hlog : mid.audit = book.audit)
    (hcount : mid.auditSequence = book.auditSequence)
    (htime : mid.lastObservedTime = book.lastObservedTime)
    (hkept : ∀ entry, book.AuditMatches entry → mid.AuditMatches entry)
    (hnew : mid.AuditMatches ⟨book.auditSequence + 1, now, event⟩)
    (hfresh : ∀ entry, book.AuditMatches entry → entry.event.subject ≠ event.subject)
    (hcomplete : ∀ subject, mid.Audited subject → book.Audited subject ∨ subject = event.subject) :
    AuditIntegrity (mid.logged now event) := by
  have hrows : (mid.logged now event).audit.toList = book.audit.toList ++
      [(book.auditSequence + 1, ⟨book.auditSequence + 1, now, event⟩)] := by
    unfold logged
    rw [hlog, hcount]
    exact Table.toList_insert_last _ fun _ _ hrow => haudit.key_le hrow
  have hsubjects : (mid.logged now event).auditSubjects =
      book.auditSubjects ++ [event.subject] := by
    rw [auditSubjects, hrows, List.map_append]
    rfl
  have hmem : ∀ row ∈ (mid.logged now event).audit.toList, row ∈ book.audit.toList ∨
        row = (book.auditSequence + 1, ⟨book.auditSequence + 1, now, event⟩) := by
    intro row hrow
    rw [hrows, List.mem_append, List.mem_singleton] at hrow
    exact hrow
  constructor
  · change mid.auditSequence + 1 < 2 ^ 64
    rw [hcount]
    exact hsequence
  · change _ = List.range' 1 (mid.auditSequence + 1)
    rw [hrows, hcount, List.map_append, haudit.sequence, List.range'_1_concat]
    simp [Nat.add_comm]
  · intro row hrow
    rcases hmem row hrow with hold | rfl
    · exact haudit.keyed row hold
    · rfl
  · rw [hrows, List.map_append, List.pairwise_append]
    refine ⟨haudit.ordered, List.pairwise_singleton _ _, ?_⟩
    intro earlier hearlier later hlater
    obtain ⟨row, hrow, rfl⟩ := List.mem_map.mp hearlier
    obtain ⟨highWaterMark, hmark, hle⟩ := haudit.observed row hrow
    rw [hnow] at hmark
    cases hmark
    rw [List.map_singleton, List.mem_singleton] at hlater
    rw [hlater]
    exact hle
  · intro row hrow
    refine ⟨now, htime.trans hnow, ?_⟩
    rcases hmem row hrow with hold | rfl
    · obtain ⟨highWaterMark, hmark, hle⟩ := haudit.observed row hold
      rw [hnow] at hmark
      cases hmark
      exact hle
    · exact le_rfl
  · intro row hrow
    rcases hmem row hrow with hold | rfl
    · exact hkept row.2 (haudit.matching row hold)
    · exact hnew
  · rw [hsubjects, List.nodup_append]
    refine ⟨haudit.distinct, List.nodup_singleton _, ?_⟩
    intro subject hsubject other hother
    obtain ⟨row, hrow, rfl⟩ := List.mem_map.mp hsubject
    rw [List.mem_singleton.mp hother]
    exact hfresh row.2 (haudit.matching row hrow)
  · intro subject hsubject
    rw [hsubjects, List.mem_append, List.mem_singleton]
    rcases hcomplete subject hsubject with hold | hlast
    · exact .inl (haudit.complete subject hold)
    · exact .inr hlast

/-- What the audit log may say of a reservation still holds of its new row. -/
def AuditKept (old new : StoredReservation) : Prop :=
  new.createdAt = old.createdAt ∧ new.outpoints = old.outpoints ∧
  (∀ reason at', old.state ≠ .released reason at') ∧
  (∀ intent, old.state.intent? = some intent → new.state.intent? = some intent) ∧
  old.state.artifact? = none

theorem AuditMatches.put {entry : StoredAuditEntry} {new : StoredReservation}
    (hmatch : book.AuditMatches entry)
    (hreservations : mid.reservations = book.reservations.insert new.id new)
    (hinventory : mid.inventory = book.inventory)
    (hkeep : ∀ old, book.reservations[new.id]? = some old → AuditKept old new) :
    mid.AuditMatches entry := by
  unfold AuditMatches at hmatch ⊢
  rw [hinventory, hreservations]
  cases hevent : entry.event with
  | inventoryImported outpoint =>
    simp only [hevent] at hmatch ⊢
    exact hmatch
  | reservationCreated reservationId outpoints =>
    simp only [hevent] at hmatch ⊢
    apply Table.exists_row_insert _ hmatch
    intro old hold hcreated
    obtain ⟨htime, houtpoints, -⟩ := hkeep old hold
    rw [htime, houtpoints]
    exact hcreated
  | reservationReleased reservationId reason =>
    simp only [hevent] at hmatch ⊢
    apply Table.exists_row_insert _ hmatch
    intro old hold hreleased
    exact absurd hreleased ((hkeep old hold).2.2.1 reason entry.at')
  | signingCommitted reservationId commitment =>
    simp only [hevent] at hmatch ⊢
    apply Table.exists_row_insert _ hmatch
    intro old hold hcommitted
    obtain ⟨intent, hintent, hsame⟩ := hcommitted
    exact ⟨intent, (hkeep old hold).2.2.2.1 intent hintent, hsame⟩
  | signedArtifactStored reservationId digest =>
    simp only [hevent] at hmatch ⊢
    apply Table.exists_row_insert _ hmatch
    intro old hold hsigned
    obtain ⟨artifact, hartifact, -⟩ := hsigned
    rw [(hkeep old hold).2.2.2.2] at hartifact
    cases hartifact

theorem AuditIntegrity.put (haudit : AuditIntegrity book)
    (mid : ReservationBook) (event : StoredAuditEvent) (new : StoredReservation)
    (hnow : book.lastObservedTime = some now) (hsequence : book.auditSequence + 1 < 2 ^ 64)
    (hlog : mid.audit = book.audit) (hcount : mid.auditSequence = book.auditSequence)
    (htime : mid.lastObservedTime = book.lastObservedTime)
    (hreservations : mid.reservations = book.reservations.insert new.id new)
    (hinventory : mid.inventory = book.inventory)
    (hkeep : ∀ old, book.reservations[new.id]? = some old → AuditKept old new)
    (hnew : mid.AuditMatches ⟨book.auditSequence + 1, now, event⟩)
    (hfresh : ¬book.Witnessed event.subject)
    (hsubjects : ∀ subject ∈ new.subjects, subject = event.subject ∨
      ∃ old, book.reservations[new.id]? = some old ∧ subject ∈ old.subjects) :
    AuditIntegrity (mid.logged now event) := by
  apply haudit.log mid event hnow hsequence hlog hcount htime
  · intro entry hmatch
    exact hmatch.put hreservations hinventory hkeep
  · exact hnew
  · intro entry hmatch hsubject
    rw [← hsubject] at hfresh
    exact hfresh hmatch.witnessed
  · intro subject hsubject
    unfold Audited at hsubject
    rw [hinventory, hreservations] at hsubject
    rcases hsubject with himported | ⟨reservationId, record, hrow, hmem⟩
    · exact .inl (.inl himported)
    · rw [Table.row_insert] at hrow
      by_cases hcase : new.id = reservationId
      · rw [if_pos hcase] at hrow
        cases hrow
        rcases hsubjects subject hmem with heq | ⟨old, hold, hmem⟩
        · exact .inr heq
        · exact .inl (.inr ⟨_, old, hold, hmem⟩)
      · rw [if_neg hcase] at hrow
        exact .inl (.inr ⟨reservationId, record, hrow, hmem⟩)

/-! ## Importing -/

theorem Integrity.afterImport (hbook : Integrity crypto book)
    (hnow : book.lastObservedTime = some now) {item : StoredInventoryItem}
    (hvalid : item.Valid) (hnew : book.inventory[item.outpoint]? = none)
    (hsequence : book.auditSequence + 1 < 2 ^ 64) :
    Integrity crypto (book.afterImport now item) := by
  have hextends : Extends book (book.afterImport now item) := by
    constructor
    · rfl
    · intro outpoint other hother
      have hne : item.outpoint ≠ outpoint := by
        rintro rfl
        rw [hnew] at hother
        cases hother
      simp only [ReservationBook.afterImport, logged, Table.row_insert, if_neg hne]
      exact hother
    · intro before hbefore
      exact ⟨before, hbefore, le_rfl⟩
  constructor
  · exact hbook.inventoryKeyed.insert item
  · intro outpoint other hother
    simp only [ReservationBook.afterImport, logged, Table.row_insert] at hother
    by_cases hcase : item.outpoint = outpoint
    · rw [if_pos hcase] at hother
      cases hother
      exact hvalid
    · rw [if_neg hcase] at hother
      exact hbook.inventoryValid outpoint other hother
  · exact hbook.recordsKeyed
  · intro reservationId record hrow
    exact (hbook.records reservationId record hrow).extend hextends
  · exact hbook.bindings
  · exact hbook.allocated
  · exact hbook.expiring
  · exact hbook.liveQuotes
  · apply hbook.audited.log { book with inventory := book.inventory.insert item.outpoint item }
      (.inventoryImported item.outpoint) hnow hsequence rfl rfl rfl
    · intro entry hmatch
      unfold AuditMatches at hmatch ⊢
      cases hevent : entry.event with
      | inventoryImported outpoint =>
        simp only [hevent, Table.row_insert] at hmatch ⊢
        by_cases hcase : item.outpoint = outpoint
        · simp [hcase]
        · rw [if_neg hcase]
          exact hmatch
      | reservationCreated | reservationReleased | signingCommitted | signedArtifactStored =>
        simpa only [hevent] using hmatch
    · simp [AuditMatches]
    · intro entry hmatch hsubject
      have hwitnessed := hmatch.witnessed
      rw [hsubject] at hwitnessed
      exact hwitnessed hnew
    · intro subject hsubject
      rcases hsubject with ⟨outpoint, hrow, rfl⟩ | hrecord
      · rw [Table.row_insert] at hrow
        by_cases hcase : item.outpoint = outpoint
        · exact .inr (by rw [← hcase]; rfl)
        · rw [if_neg hcase] at hrow
          exact .inl (.inl ⟨outpoint, hrow, rfl⟩)
      · exact .inl (.inr hrecord)

/-! ## Creating -/

theorem Creates.validateStoredQuote (hcreates : Creates crypto now book record)
    {quote : StoredFirmQuote} (hquote : record.quote = some quote) :
    book.validateStoredQuote crypto record quote = .ok () := by
  obtain ⟨domain, hchecked⟩ := hcreates.checked
  simp only [checkNewReservation, bind_eq_ok, okOr_eq_ok, require_eq_ok, pure_eq_ok,
    hquote, Option.some.injEq] at hchecked
  obtain ⟨-, -, _, rfl, domain, hdomain, selected, hfold, -, hselected, -⟩ := hchecked
  simp only [ReservationBook.validateStoredQuote, bind_eq_ok, require_eq_ok]
  refine ⟨domain, hdomain, selected, ?_, hselected⟩
  apply foldlM_commute id _ _ hfold
  intro total input total' hstep
  simp only [addQuotedAmount, addDurableAmount, bind_eq_ok, okOr_eq_ok, require_eq_ok] at hstep ⊢
  obtain ⟨item, hitem, _, hvalid, _, ⟨hasset, hbinding, hrecomputed⟩, hadd⟩ := hstep
  exact ⟨item, hitem, (), ⟨hasset, hbinding⟩, (), hvalid, (), hrecomputed, hadd⟩

theorem Creates.valid (hcreates : Creates crypto now book record) :
    record.validate crypto = .ok () ∧ record.quote ≠ none := by
  obtain ⟨domain, hchecked⟩ := hcreates.checked
  simp only [checkNewReservation, bind_eq_ok, okOr_eq_ok] at hchecked
  obtain ⟨_, hvalid, stored, hquote, -⟩ := hchecked
  exact ⟨hvalid, by simp [hquote]⟩

theorem Creates.recordIntegrity (hcreates : Creates crypto now book record)
    (hnow : book.lastObservedTime = some now) : RecordIntegrity crypto book record := by
  constructor
  · exact hcreates.valid.1
  · exact hcreates.policyAsset
  · exact hcreates.requestDigest
  · refine ⟨now, hnow, hcreates.created.le, ?_⟩
    rw [hcreates.reserved]
    trivial
  · exact fun quote hquote => hcreates.validateStoredQuote hquote
  · exact hcreates.known
  · intro intent hintent
    rw [hcreates.reserved] at hintent
    cases hintent

theorem Integrity.afterCreate (hbook : Integrity crypto book)
    (hnow : book.lastObservedTime = some now) (hcreates : Creates crypto now book record) :
    Integrity crypto (book.afterCreate record) := by
  have hextends : Extends book (book.afterCreate record) := .of_eq rfl rfl rfl
  have hreserved := hcreates.reserved
  constructor
  · exact hbook.inventoryKeyed
  · exact hbook.inventoryValid
  · exact hbook.recordsKeyed.insert record
  · intro reservationId other hother
    simp only [ReservationBook.afterCreate, putCreated, logged, Table.row_insert] at hother
    by_cases hcase : record.id = reservationId
    · rw [if_pos hcase] at hother
      cases hother
      exact (hcreates.recordIntegrity hnow).extend hextends
    · rw [if_neg hcase] at hother
      exact (hbook.records reservationId other hother).extend hextends
  · apply hbook.bindings.insert hcreates.fresh
    · intro key binding hentry
      by_cases hkey : key = requestKey record.owner record.idempotencyKey
      · rw [hkey]
        exact hcreates.freshKey
      · simp [bindingEntries, hkey] at hentry
    · intro key
      simp only [ReservationBook.afterCreate, putCreated, logged, Table.row_insert, bindingEntries]
      by_cases hkey : key = requestKey record.owner record.idempotencyKey
      · simp [hkey, StoredReservation.binding]
      · simp [hkey, Ne.symm hkey]
  · apply hbook.allocated.insert hcreates.fresh
    · intro outpoint allocation hentry
      by_cases houtpoint : outpoint ∈ record.outpoints
      · exact hcreates.unallocated outpoint houtpoint
      · simp [allocationEntries, houtpoint] at hentry
    · intro outpoint
      simp only [ReservationBook.afterCreate, putCreated, logged, Table.row_fill, allocationEntries]
      by_cases houtpoint : outpoint ∈ record.outpoints
      · simp [houtpoint, StoredReservation.allocation?, hreserved]
      · simp [houtpoint]
  · apply hbook.expiring.insert hcreates.fresh
    · intro key u hentry
      exact hbook.expiring.free_of_new hcreates.fresh hentry
    · intro key
      simp only [ReservationBook.afterCreate, putCreated, logged, Table.row_insert,
        expirationEntries, hreserved, true_and]
      by_cases hkey : key = expirationKey record.acceptBefore record.id
      · simp [hkey]
      · simp [hkey, Ne.symm hkey]
  · apply hbook.liveQuotes.insert hcreates.fresh
    · intro key u hentry
      exact hbook.liveQuotes.free_of_new hcreates.fresh hentry
    · intro key
      simp only [ReservationBook.afterCreate, putCreated, logged, Table.row_insert,
        liveQuoteEntries, hreserved, hcreates.valid.2, true_and, ne_eq, not_false_eq_true]
      by_cases hkey : key = liveQuoteKey record.acceptBefore record.owner record.id
      · simp [hkey]
      · simp [hkey, Ne.symm hkey]
  · rw [← hcreates.created] at hnow
    apply hbook.audited.put (book.putCreated record)
      (.reservationCreated record.id record.outpoints) record hnow
      hcreates.sequence rfl rfl rfl rfl rfl
    · intro old hold
      exact absurd (hcreates.fresh.symm.trans hold) (by simp)
    · simp [AuditMatches, putCreated]
    · exact fun hwitnessed => hwitnessed hcreates.fresh
    · intro subject hsubject
      rw [StoredReservation.subjects, hreserved] at hsubject
      exact .inl (List.mem_singleton.mp hsubject)

/-! ## Leaving the reserved state -/

theorem Integrity.leaveReserved_deadlines (hbook : Integrity crypto book)
    (hrow : book.reservations[record.id]? = some record)
    (hleaves : Leaves book record) (new : StoredReservation)
    (hid : new.id = record.id) (hstate : new.state ≠ .reserved)
    (allocations : Table OutPoint StoredAllocation) :
    Table.Derived expirationEntries (book.leaveReserved record new allocations).reservations
      (book.leaveReserved record new allocations).expirations ∧
    Table.Derived liveQuoteEntries (book.leaveReserved record new allocations).reservations
      (book.leaveReserved record new allocations).liveQuotesByOwner := by
  have hreserved := hleaves.reserved
  constructor
  · apply hbook.expiring.replace hbook.recordsKeyed record new hid hrow
    · intro key _
      simp [expirationEntries, hstate]
    · intro key
      simp only [leaveReserved, Table.row_erase, expirationEntries, hreserved, hstate,
        true_and, false_and, if_false]
      by_cases hkey : key = expirationKey record.acceptBefore record.id
      · simp [hkey]
      · simp [hkey, Ne.symm hkey]
  · apply hbook.liveQuotes.replace hbook.recordsKeyed record new hid hrow
    · intro key _
      simp [liveQuoteEntries, hstate]
    · intro key
      simp only [leaveReserved, Table.row_erase, liveQuoteEntries, hreserved, hstate,
        true_and, false_and, if_false]
      by_cases hkey : key = liveQuoteKey record.acceptBefore record.owner record.id
      · rw [if_pos hkey.symm, hkey]
        by_cases hquote : record.quote = none
        · simp [hquote, hleaves.liveQuote.mpr hquote]
        · simp [hquote]
      · simp [hkey, Ne.symm hkey]

/-! ## Going on to another state -/

/-- The changes of state of a reservation, with the events they log. -/
inductive Advances (now : UnixMillis) (record : StoredReservation) :
    StoredReservationState → StoredAuditEvent → Prop where
  | release (hreserved : record.state = .reserved) (reason : ReleaseReason) :
      Advances now record (.released reason now) (.reservationReleased record.id reason)
  | commit (hreserved : record.state = .reserved) (intent : StoredSigningIntent)
      (hnow : intent.committedAt = now) :
      Advances now record (.committed intent) (.signingCommitted record.id intent.commitment)
  | sign {intent : StoredSigningIntent} (hcommitted : record.state = .committed intent)
      (artifact : StoredSignedArtifact) (hnow : artifact.signedAt = now) :
      Advances now record (.signed intent artifact)
        (.signedArtifactStored record.id artifact.digest)

section Advancing

variable {state : StoredReservationState} {event : StoredAuditEvent}

theorem Advances.keeps (hadvances : Advances now record state event) :
    AuditKept record { record with state } := by
  refine ⟨rfl, rfl, ?_⟩
  cases hadvances with
  | release hstate | commit hstate | sign hstate =>
    simp [hstate, StoredReservationState.intent?, StoredReservationState.artifact?]

theorem Advances.auditMatches (hadvances : Advances now record state event)
    (hrow : mid.reservations[record.id]? = some { record with state })
    (sequence : ℕ) : mid.AuditMatches ⟨sequence, now, event⟩ := by
  cases hadvances with
  | release hreserved reason => exact ⟨_, hrow, rfl⟩
  | commit hreserved intent hnow => exact ⟨_, hrow, intent, rfl, rfl, hnow⟩
  | sign hcommitted artifact hnow => exact ⟨_, hrow, artifact, rfl, rfl, hnow⟩

theorem Advances.not_witnessed (hadvances : Advances now record state event)
    (hrow : book.reservations[record.id]? = some record) : ¬book.Witnessed event.subject := by
  have hrecord : ∀ other ∈ book.reservations[record.id]?, other = record := by
    intro other hother
    rw [Option.mem_def, hrow] at hother
    exact (Option.some.inj hother).symm
  cases hadvances with
  | release hreserved reason =>
    rintro ⟨other, hother, reason, at', hreleased⟩
    rw [hrecord other hother, hreserved] at hreleased
    cases hreleased
  | commit hreserved intent hnow =>
    rintro ⟨other, hother, hintent⟩
    rw [hrecord other hother, hreserved] at hintent
    exact hintent rfl
  | sign hcommitted artifact hnow =>
    rintro ⟨other, hother, hartifact⟩
    rw [hrecord other hother, hcommitted] at hartifact
    exact hartifact rfl

theorem Advances.subjects (hadvances : Advances now record state event) {subject : AuditSubject}
    (hsubject : subject ∈ ({ record with state } : StoredReservation).subjects) :
    subject = event.subject ∨ subject ∈ record.subjects := by
  cases hadvances with
  | release hreserved | commit hreserved =>
    simp only [StoredReservation.subjects, hreserved, List.mem_cons,
      StoredAuditEvent.subject, List.not_mem_nil, or_false] at hsubject ⊢
    tauto
  | sign hcommitted artifact hnow =>
    simp only [StoredReservation.subjects, hcommitted, List.mem_cons,
      StoredAuditEvent.subject, List.not_mem_nil, or_false] at hsubject ⊢
    tauto

/-- Only a record and the indexes of its deadline and outpoints change. -/
structure ReplacesRecord (book mid : ReservationBook) (record : StoredReservation)
    (state : StoredReservationState) : Prop where
  reservations : mid.reservations = book.reservations.insert record.id { record with state }
  identity : mid.identity = book.identity
  inventory : mid.inventory = book.inventory
  requestKeys : mid.requestKeys = book.requestKeys
  audit : mid.audit = book.audit
  auditSequence : mid.auditSequence = book.auditSequence
  lastObservedTime : mid.lastObservedTime = book.lastObservedTime
  allocated : Table.Derived allocationEntries mid.reservations mid.allocations
  expiring : Table.Derived expirationEntries mid.reservations mid.expirations
  liveQuotes : Table.Derived liveQuoteEntries mid.reservations mid.liveQuotesByOwner

variable (hbook : Integrity crypto book) (hnow : book.lastObservedTime = some now)
  (hrow : book.reservations[record.id]? = some record)

include hbook

include hnow hrow in
theorem Integrity.advance (hsequence : book.auditSequence + 1 < 2 ^ 64)
    (hadvances : Advances now record state event) (hreplaces : ReplacesRecord book mid record state)
    (hrecord : RecordIntegrity crypto book { record with state }) :
    Integrity crypto (mid.logged now event) := by
  have hextends : Extends book (mid.logged now event) :=
    .of_eq hreplaces.identity hreplaces.inventory hreplaces.lastObservedTime
  constructor
  · change Table.Keyed mid.inventory _
    rw [hreplaces.inventory]
    exact hbook.inventoryKeyed
  · change ∀ (outpoint : OutPoint) (item : StoredInventoryItem),
      mid.inventory[outpoint]? = some item → item.Valid
    rw [hreplaces.inventory]
    exact hbook.inventoryValid
  · change Table.Keyed mid.reservations _
    rw [hreplaces.reservations]
    exact hbook.recordsKeyed.insert { record with state }
  · intro reservationId other hother
    change mid.reservations[reservationId]? = some other at hother
    rw [hreplaces.reservations, Table.row_insert] at hother
    by_cases hcase : record.id = reservationId
    · rw [if_pos hcase] at hother
      cases hother
      exact hrecord.extend hextends
    · rw [if_neg hcase] at hother
      exact (hbook.records reservationId other hother).extend hextends
  · change Table.Derived bindingEntries mid.reservations mid.requestKeys
    rw [hreplaces.reservations, hreplaces.requestKeys]
    exact hbook.bindings.replace_same hbook.recordsKeyed record
      { record with state } rfl hrow fun _ => rfl
  · exact hreplaces.allocated
  · exact hreplaces.expiring
  · exact hreplaces.liveQuotes
  · apply hbook.audited.put mid event { record with state } hnow hsequence
      hreplaces.audit hreplaces.auditSequence hreplaces.lastObservedTime
      hreplaces.reservations hreplaces.inventory
    · intro old hold
      obtain rfl : record = old := Option.some.inj (hrow.symm.trans hold)
      exact hadvances.keeps
    · apply hadvances.auditMatches
      rw [hreplaces.reservations, Table.row_insert, if_pos rfl]
    · exact hadvances.not_witnessed hrow
    · intro subject hsubject
      rcases hadvances.subjects hsubject with heq | hmem
      · exact .inl heq
      · exact .inr ⟨record, hrow, hmem⟩

include hrow in
theorem Integrity.leaveReserved (hleaves : Leaves book record)
    (state : StoredReservationState) (hstate : state ≠ .reserved)
    (allocations : Table OutPoint StoredAllocation)
    (hown : ∀ outpoint ∈ record.outpoints, allocations[outpoint]? =
      ({ record with state } : StoredReservation).allocation?)
    (hothers : ∀ outpoint, outpoint ∉ record.outpoints →
      allocations[outpoint]? = book.allocations[outpoint]?) :
    ReplacesRecord book (book.leaveReserved record { record with state } allocations)
      record state := by
  have hdeadlines := hbook.leaveReserved_deadlines hrow hleaves { record with state }
    rfl hstate allocations
  refine ⟨rfl, rfl, rfl, rfl, rfl, rfl, rfl, ?_, hdeadlines.1, hdeadlines.2⟩
  apply hbook.allocated.replace hbook.recordsKeyed record { record with state } rfl hrow
  · intro outpoint hnone
    by_cases houtpoint : outpoint ∈ record.outpoints
    · simp [allocationEntries, houtpoint, StoredReservation.allocation?, hleaves.reserved] at hnone
    · simp [allocationEntries, houtpoint]
  · intro outpoint
    change allocations[outpoint]? = _
    by_cases houtpoint : outpoint ∈ record.outpoints
    · have hold : record.allocation? = some (.reserved record.id) := by
        simp [StoredReservation.allocation?, hleaves.reserved]
      simp [allocationEntries, houtpoint, hold, hown outpoint houtpoint]
    · simp [allocationEntries, houtpoint, hothers outpoint houtpoint]

include hnow hrow in
theorem Integrity.afterRelease {reason : ReleaseReason} (hleaves : Leaves book record)
    (hreason : reason = .expired ↔ record.acceptBefore ≤ now) :
    Integrity crypto (book.afterRelease record reason now) := by
  have hold := hbook.records record.id record hrow
  obtain ⟨highWaterMark, hmark, htimes⟩ := hold.times
  rw [hnow] at hmark
  cases hmark
  have hreplaces := hbook.leaveReserved hrow hleaves (.released reason now) (by simp)
    (book.allocations.eraseAll record.outpoints)
    (fun outpoint hmem => by rw [Table.row_eraseAll, if_pos hmem]; rfl)
    (fun outpoint hmem => by rw [Table.row_eraseAll, if_neg hmem])
  apply hbook.advance hnow hrow hleaves.sequence (.release hleaves.reserved reason) hreplaces
  apply hold.withState
  · rfl
  · exact ⟨now, hnow, htimes.1, htimes.1, le_rfl, hreason⟩
  · intro intent hintent
    cases hintent

theorem Integrity.targets_valid
    (htargets : book.signingTargetsForReservation record = .ok targets) :
    targets.map StoredSigningTarget.outpoint = record.outpoints ∧
      ∀ target ∈ targets, target.walletLocator ≠ 0 := by
  rw [signingTargetsForReservation, mapM_eq_ok] at htargets
  generalize record.outpoints = outpoints at htargets
  induction htargets with
  | nil => simp
  | cons htarget _ ih =>
    simp only [signingTarget, bind_eq_ok, okOr_eq_ok, require_eq_ok, pure_eq_ok] at htarget
    obtain ⟨item, hitem, -, hvalid, rfl⟩ := htarget
    have houtpoint := hbook.inventoryKeyed _ item hitem
    constructor
    · rw [List.map_cons, ih.1]
      exact congrArg (· :: _) houtpoint
    · intro target hmem
      rcases List.mem_cons.mp hmem with rfl | hmem
      · exact hvalid.1
      · exact ih.2 target hmem

include hnow hrow in
theorem Integrity.afterCommit (hleaves : Leaves book record)
    {preSignPayload : Bytes} {fee : StoredTransactionFee}
    (hcommits : Commits crypto now book record preSignPayload fee targets) :
    Integrity crypto (book.afterCommit record
      (committedIntent crypto now record preSignPayload fee targets)) := by
  have hold := hbook.records record.id record hrow
  obtain ⟨highWaterMark, hmark, htimes⟩ := hold.times
  rw [hnow] at hmark
  cases hmark
  have hreplaces := hbook.leaveReserved hrow hleaves
    (.committed (committedIntent crypto now record preSignPayload fee targets))
    (by simp) (book.allocations.fill record.outpoints (.committed record.id
      (committedIntent crypto now record preSignPayload fee targets).commitment))
    (fun outpoint hmem => by rw [Table.row_fill, if_pos hmem]; rfl)
    (fun outpoint hmem => by rw [Table.row_fill, if_neg hmem])
  apply hbook.advance hnow hrow hleaves.sequence (.commit hleaves.reserved _ rfl) hreplaces
  obtain ⟨houtpoints, hlocators⟩ := hbook.targets_valid hcommits.targets
  apply hold.withState
  · exact validate_intent hcommits.payload hcommits.validFee hcommits.policy
      houtpoints hlocators rfl
  · exact ⟨now, hnow, htimes.1, htimes.1, hcommits.beforeDeadline, le_rfl⟩
  · intro intent hintent
    cases hintent
    exact hcommits.targets

include hnow hrow in
theorem Integrity.afterSign {intent : StoredSigningIntent} {bytes : Bytes}
    (hcommitted : record.state = .committed intent)
    (hbytes : validateSettlementBytes bytes = .ok ())
    (hsequence : book.auditSequence + 1 < 2 ^ 64) :
    Integrity crypto (book.afterSign record intent (signedArtifactAt crypto now intent bytes)) := by
  have hold := hbook.records record.id record hrow
  obtain ⟨highWaterMark, hmark, htimes⟩ := hold.times
  rw [hnow] at hmark
  cases hmark
  have htimes := htimes.2
  rw [hcommitted] at htimes
  have hreplaces : ReplacesRecord book
      (book.putReservation (record.sign intent (signedArtifactAt crypto now intent bytes))) record
      (.signed intent (signedArtifactAt crypto now intent bytes)) := by
    refine ⟨rfl, rfl, rfl, rfl, rfl, rfl, rfl, ?_, ?_, ?_⟩
    · apply hbook.allocated.replace_same hbook.recordsKeyed record
        (record.sign intent (signedArtifactAt crypto now intent bytes)) rfl hrow
      intro outpoint
      simp [allocationEntries, StoredReservation.allocation?, StoredReservation.sign, hcommitted]
    · apply hbook.expiring.replace_same hbook.recordsKeyed record
        (record.sign intent (signedArtifactAt crypto now intent bytes)) rfl hrow
      intro key
      simp [expirationEntries, StoredReservation.sign, hcommitted]
    · apply hbook.liveQuotes.replace_same hbook.recordsKeyed record
        (record.sign intent (signedArtifactAt crypto now intent bytes)) rfl hrow
      intro key
      simp [liveQuoteEntries, StoredReservation.sign, hcommitted]
  apply hbook.advance hnow hrow hsequence (.sign hcommitted _ rfl) hreplaces
  apply hold.withState
  · have hintent := validate_state hold.valid
    rw [hcommitted] at hintent
    simp only [StoredReservationState.validate, StoredSignedArtifact.toDomain,
      signedArtifactAt, bind_eq_ok, mapError_eq_ok, require_eq_ok, pure_eq_ok]
    exact ⟨(), hintent, _, ⟨(), hbytes, (), trivial, rfl⟩, trivial⟩
  · exact ⟨now, hnow, htimes.1.trans htimes.2.2, htimes, htimes.2.2, le_rfl⟩
  · intro other hother
    cases hother
    exact hold.targets intent (by rw [hcommitted]; rfl)

end Advancing

/-! ## Operations -/

theorem Transition.lastObservedTime_eq (hstep : Transition crypto now book next) :
    next.lastObservedTime = book.lastObservedTime := by
  cases hstep <;> rfl

theorem Transition.integrity (hstep : Transition crypto now book next)
    (hnow : book.lastObservedTime = some now) (hbook : Integrity crypto book) :
    Integrity crypto next := by
  cases hstep with
  | imported hvalid hnew hsequence => exact hbook.afterImport hnow hvalid hnew hsequence
  | created hcreates => exact hbook.afterCreate hnow hcreates
  | released hrow hleaves hreason => exact hbook.afterRelease hnow hrow hleaves hreason
  | committed hrow hleaves hcommits => exact hbook.afterCommit hnow hrow hleaves hcommits
  | signed hrow hcommitted hbytes hsequence =>
    exact hbook.afterSign hnow hrow hcommitted hbytes hsequence

theorem Writes.integrity (hwrites : Writes crypto now book next)
    (hnow : book.lastObservedTime = some now) (hbook : Integrity crypto book) :
    next.lastObservedTime = some now ∧ Integrity crypto next := by
  induction hwrites with
  | refl => exact ⟨hnow, hbook⟩
  | tail _ hstep ih =>
    exact ⟨hstep.lastObservedTime_eq.trans ih.1, hstep.integrity ih.1 ih.2⟩

theorem Integrity.observeTime (hbook : Integrity crypto book)
    (hobserve : book.observeTime now = .ok next) : Integrity crypto next := by
  obtain ⟨hle, rfl⟩ := observeTime_eq_ok.mp hobserve
  have hextends : Extends book { book with lastObservedTime := some now } :=
    ⟨rfl, fun _ _ hitem => hitem, fun before hbefore => ⟨now, rfl, hle before hbefore⟩⟩
  have haudit := hbook.audited
  refine { hbook with records := ?_, audited := { haudit with observed := ?_ } }
  · intro reservationId record hrow
    exact (hbook.records reservationId record hrow).extend hextends
  · intro row hrow
    obtain ⟨before, hbefore, hat⟩ := haudit.observed row hrow
    exact ⟨now, rfl, hat.trans (hle before hbefore)⟩

theorem Timed.integrity (htimed : Timed crypto now book next)
    (hbook : Integrity crypto book) : Integrity crypto next := by
  rcases htimed with rfl | ⟨observed, hobserve, hwrites⟩
  · exact hbook
  · have hobserved : observed.lastObservedTime = some now := by
      rw [(observeTime_eq_ok.mp hobserve).2]
    exact (hwrites.integrity hobserved (hbook.observeTime hobserve)).2

theorem Integrity.empty (identity : ProviderIdentity) : Integrity crypto { identity } := by
  constructor
  · intro outpoint item hitem
    simp at hitem
  · intro outpoint item hitem
    simp at hitem
  · intro reservationId record hrow
    simp at hrow
  · intro reservationId record hrow
    simp at hrow
  · exact .empty
  · exact .empty
  · exact .empty
  · exact .empty
  · have hlog : (∅ : Table ℕ StoredAuditEntry).toList = [] := Table.toList_empty
    constructor <;> simp [auditSubjects, Audited, hlog]

end ReservationBook

end DeadcatNode
