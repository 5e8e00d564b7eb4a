import DeadcatNode.NodeStoreBackfill

/-!
# The undo row inverts the block

Every write of a canonical block application enters its inverse in the undo
row.  `Reverts` says that replaying the row built so far leads from the current
tables back to the tables the application started from; each primitive write
keeps it.  The contract rows are the delicate part, since a promotion to ready
after a transition in the same block is not journalled again: the earlier
before-image already restores the contract whatever its record has become.
-/

namespace DeadcatNode

open Checked

variable {c : ContractId} {delta : ChainTxDelta} {anchor : ChainAnchor} {blockDigest nextHeight : ℕ}
  {progress : BackfillProgress} {hashing : Hashing}

/-! ## Contract changes -/

theorem undoContracts_append
    (changes : List ContractUndo) (change : ContractUndo) (acc : ContractTables × List ContractId) :
    (changes ++ [change]).reverse.foldlM (undoContractChange hashing) acc =
      undoContractChange hashing acc change >>= fun next =>
        changes.reverse.foldlM (undoContractChange hashing) next := by
  rw [List.reverse_append, List.reverse_singleton, List.singleton_append, List.foldlM_cons]

variable {tables : ContractTables} {record : ContractRecord}

theorem undoContractChange_create (hexact : tables.Exact hashing)
    (hinsertable : tables.Insertable hashing record) (affected : List ContractId) :
    undoContractChange hashing (tables.putContract hashing record, affected)
        ⟨record.contractId, none⟩ = .ok (tables, affected ++ [record.contractId]) := by
  have hrow : (tables.putContract hashing record).contracts[record.contractId]? =
      some record := by simp
  simp only [undoContractChange, dropCurrent, hrow]
  rw [hexact.removeContract_putContract hinsertable]
  rfl

theorem undoContractChange_replace (hexact : tables.Exact hashing) {before after : ContractRecord}
    (hbefore : tables.contracts[before.contractId]? = some before)
    (hid : after.contractId = before.contractId)
    (hinsertable : (tables.removeContract hashing before).Insertable hashing after)
    (affected : List ContractId) :
    undoContractChange hashing
        ((tables.removeContract hashing before).putContract hashing after, affected)
        ⟨before.contractId, some before⟩ = .ok (tables, affected ++ [before.contractId]) := by
  have hremoved := hexact.removeContract hbefore
  have hrow : ((tables.removeContract hashing before).putContract hashing
      after).contracts[before.contractId]? = some after := by
    simp [hid]
  have hinsert : (tables.removeContract hashing before).insertContract hashing
      before = .ok tables := by
    rw [ContractTables.insertContract_eq_ok]
    exact ⟨hexact.insertable_removeContract hbefore,
      (hexact.putContract_removeContract hbefore).symm⟩
  simp only [undoContractChange, dropCurrent, hrow]
  rw [hremoved.removeContract_putContract hinsertable, hinsert]
  rfl

/-- Records which agree in everything the index tables are built from. -/
structure ContractRecord.SameIndexed (record other : ContractRecord) : Prop where
  contractId : other.contractId = record.contractId
  state : other.state = record.state
  scripts : other.scripts = record.scripts
  assets : other.assets = record.assets
  outpoints : other.outpoints = record.outpoints

variable {other : ContractRecord}

theorem ContractTables.removeContract_sameIndexed
    (hsame : record.SameIndexed other) (tables : ContractTables) :
    ContractTables.removeContract hashing { tables with
          contracts := tables.contracts.insert record.contractId other } other =
      tables.removeContract hashing record := by
  obtain ⟨hid, hstate, hscripts, hassets, houtpoints⟩ := hsame
  simp only [ContractTables.removeContract, hid, hstate, hscripts, hassets,
    houtpoints, Table.erase_insert_self]

theorem ContractTables.putContract_sameIndexed
    (hsame : record.SameIndexed other) (tables : ContractTables) :
    tables.putContract hashing other = { tables.putContract hashing record with
        contracts := (tables.putContract hashing record).contracts.insert
          record.contractId other } := by
  obtain ⟨hid, hstate, hscripts, hassets, houtpoints⟩ := hsame
  simp only [putContract, withOutpoints, insertScripts, insertAssets, hid,
    hstate, hscripts, hassets, houtpoints, Table.insert_insert_self]

theorem ContractTables.insertContract_other {next : ContractTables}
    (hne : c ≠ record.contractId) (hinsert : tables.insertContract hashing record = .ok next) :
    ContractTables.insertContract hashing
        { tables with contracts := tables.contracts.insert c other } record =
      .ok { next with contracts := next.contracts.insert c other } := by
  obtain ⟨hinsertable, rfl⟩ := insertContract_eq_ok.mp hinsert
  rw [insertContract_eq_ok]
  constructor
  · exact ⟨hinsertable.valid, by simp [hne, hinsertable.absent], hinsertable.unowned⟩
  · simp only [putContract, withOutpoints]
    rw [Table.insert_comm hne.symm]

/-- Every contract row stands under the id of its record. -/
def ContractTables.Keyed (tables : ContractTables) : Prop :=
  ∀ (c : ContractId) (record : ContractRecord),
    tables.contracts[c]? = some record → record.contractId = c

/-- A before-image is a record of the contract whose change it undoes. -/
def ContractUndo.Keyed (change : ContractUndo) : Prop :=
  ∀ before, change.before = some before → before.contractId = change.contractId

theorem dropCurrent_other (hashing : Hashing) (affected : List ContractId) {changed : ContractId}
    (other : ContractRecord) (htables : tables.Keyed) (hne : c ≠ changed) :
    ∃ dropped droppedAffected, dropCurrent hashing (tables, affected) changed =
        (dropped, droppedAffected) ∧
      dropCurrent hashing
          ({ tables with contracts := tables.contracts.insert c other }, affected) changed =
        ({ dropped with contracts := dropped.contracts.insert c other }, droppedAffected) ∧
      dropped.contracts[c]? = tables.contracts[c]? ∧ dropped.Keyed := by
  have hrow : (tables.contracts.insert c other)[changed]? =
      tables.contracts[changed]? := by rw [Table.row_insert, if_neg hne]
  simp only [dropCurrent, hrow]
  cases hcurrent : tables.contracts[changed]? with
  | none => exact ⟨_, _, rfl, rfl, rfl, htables⟩
  | some current =>
    have hid := htables _ _ hcurrent
    refine ⟨_, _, rfl, ?_, ?_, ?_⟩
    · simp only [ContractTables.removeContract, hid]
      rw [Table.erase_insert_comm hne]
    · simp [hid, hne.symm]
    · intro c' record' hrow'
      rw [ContractTables.removeContract_contracts, Table.row_erase] at hrow'
      split at hrow'
      · cases hrow'
      · exact htables _ _ hrow'

theorem undoContractChange_other {mid : ContractTables} {affected midAffected : List ContractId}
    {change : ContractUndo} (other : ContractRecord)
    (htables : tables.Keyed) (hchange : change.Keyed) (hne : c ≠ change.contractId)
    (hstep : undoContractChange hashing (tables, affected) change = .ok (mid, midAffected)) :
    undoContractChange hashing
        ({ tables with contracts := tables.contracts.insert c other }, affected) change =
      .ok ({ mid with contracts := mid.contracts.insert c other }, midAffected) ∧
    mid.contracts[c]? = tables.contracts[c]? ∧ mid.Keyed := by
  obtain ⟨dropped, droppedAffected, hleft, hright, hrow, hkeyed⟩ :=
    dropCurrent_other hashing affected other htables hne
  simp only [undoContractChange, hleft, hright] at hstep ⊢
  cases hbefore : change.before with
  | none =>
    simp only [hbefore, pure_eq_ok, Prod.mk.injEq] at hstep ⊢
    obtain ⟨rfl, rfl⟩ := hstep
    exact ⟨⟨rfl, rfl⟩, hrow, hkeyed⟩
  | some before =>
    have hid := hchange before hbefore
    have hother : c ≠ before.contractId := by rwa [hid]
    simp only [hbefore, bind_eq_ok, pure_eq_ok, Prod.mk.injEq] at hstep ⊢
    obtain ⟨next, hinsert, rfl, rfl⟩ := hstep
    refine ⟨⟨_, ContractTables.insertContract_other hother hinsert, rfl, rfl⟩, ?_, ?_⟩
    · obtain ⟨-, rfl⟩ := ContractTables.insertContract_eq_ok.mp hinsert
      rw [ContractTables.putContract_contracts, Table.row_insert, if_neg hother.symm]
      exact hrow
    · obtain ⟨-, rfl⟩ := ContractTables.insertContract_eq_ok.mp hinsert
      intro c' record' hrow'
      rw [ContractTables.putContract_contracts, Table.row_insert] at hrow'
      split at hrow'
      · next heq =>
        cases hrow'
        exact heq
      · exact hkeyed _ _ hrow'

theorem undoContracts_sameIndexed (hsame : record.SameIndexed other)
    {changes : List ContractUndo} (hchanges : ∀ change ∈ changes, change.Keyed)
    (hjournalled : record.contractId ∈ changes.map ContractUndo.contractId)
    {affected : List ContractId} (htables : tables.Keyed)
    (hrecord : tables.contracts[record.contractId]? = some record)
    {result : ContractTables × List ContractId}
    (hundo : changes.foldlM (undoContractChange hashing) (tables, affected) = .ok result) :
    changes.foldlM (undoContractChange hashing) ({ tables with
          contracts := tables.contracts.insert record.contractId other },
          affected) = .ok result := by
  -- Induction on the replay: entries of other contracts commute with the
  -- replacement, the first entry of this contract discards it.
  induction changes generalizing tables affected with
  | nil => simp at hjournalled
  | cons change rest ih =>
    rw [List.foldlM_cons, bind_eq_ok] at hundo ⊢
    obtain ⟨⟨mid, midAffected⟩, hstep, hrest⟩ := hundo
    by_cases hchange : change.contractId = record.contractId
    · refine ⟨(mid, midAffected), ?_, hrest⟩
      simp only [undoContractChange, dropCurrent, hchange, hrecord,
        Table.row_insert, if_true] at hstep ⊢
      rw [ContractTables.removeContract_sameIndexed hsame]
      exact hstep
    · obtain ⟨hstep', hrow, hkeyed⟩ := undoContractChange_other other htables
        (hchanges change List.mem_cons_self) (Ne.symm hchange) hstep
      refine ⟨_, hstep', ?_⟩
      refine ih (fun ch hch => hchanges ch (List.mem_cons_of_mem _ hch)) ?_
        hkeyed (hrow.trans hrecord) hrest
      simpa [Ne.symm hchange] using hjournalled

/-! ## The rows written by a block -/

/-- Replaying the undo row built so far leads back to `origin`. -/
structure BlockWrite.Reverts (hashing : Hashing) (origin : ChainTables)
    (write : BlockWrite) : Prop where
  exact : write.chain.contractTables.Exact hashing
  keyed : ∀ change ∈ write.undo.contractChanges, change.Keyed
  contracts : ∀ affected, ∃ affected',
    write.undo.contractChanges.reverse.foldlM (undoContractChange hashing)
        (write.chain.contractTables, affected) = .ok (origin.contractTables, affected')
  transactions :
    write.chain.transactions.eraseAll write.undo.transactionPositions = origin.transactions
  outputs : write.chain.outputs.eraseAll write.undo.outputOutpoints = origin.outputs
  history : write.chain.contractHistory.eraseAll
      (write.undo.historyKeys.map fun key => historyKey key.1 key.2) = origin.contractHistory
  hints : write.chain.recoveryHints.eraseAll write.undo.recoveryLocations = origin.recoveryHints
  progress : write.undo.backfillProgressChanges.reverse.foldl
      undoProgressChange write.chain.backfillProgress = origin.backfillProgress
  blocks : write.chain.blocks = origin.blocks
  tip : write.chain.tip = origin.tip
  previousTip : write.undo.previousTip = origin.tip

namespace BlockWrite.Reverts

variable {hashing : Hashing} {origin : ChainTables} {write next : BlockWrite}

theorem start {chain : ChainTables} (journal : EventJournal)
    (hexact : chain.contractTables.Exact hashing) :
    Reverts hashing chain ⟨chain, journal, { previousTip := chain.tip }⟩ where
  exact := hexact
  keyed := by simp
  contracts affected := ⟨affected, rfl⟩
  transactions := rfl
  outputs := rfl
  history := rfl
  hints := rfl
  progress := rfl
  blocks := rfl
  tip := rfl
  previousTip := rfl

variable (hreverts : write.Reverts hashing origin)

include hreverts in
theorem createContract {contract : ContractRecord}
    (hcreate : write.createContract hashing delta contract = .ok next) :
    next.Reverts hashing origin := by
  obtain ⟨-, hinsertable, rfl⟩ := createContract_eq_ok.mp hcreate
  refine { hreverts with exact := ?_, keyed := ?_, contracts := ?_ }
  · exact hreverts.exact.putContract hinsertable
  · intro change hchange
    rcases List.mem_append.mp hchange with hold | hnew
    · exact hreverts.keyed change hold
    · rw [List.mem_singleton] at hnew
      subst hnew
      intro before hbefore
      cases hbefore
  · intro affected
    obtain ⟨affected', hreplay⟩ := hreverts.contracts (affected ++ [contract.contractId])
    refine ⟨affected', ?_⟩
    rw [undoContracts_append, undoContractChange_create hreverts.exact hinsertable]
    exact hreplay

include hreverts in
theorem applyUpdate {update : StateUpdate}
    (hupdate : write.applyUpdate hashing delta update = .ok next) :
    next.Reverts hashing origin := by
  obtain ⟨before, hbefore, hallowed, rfl⟩ := applyUpdate_eq_ok.mp hupdate
  have hid : before.contractId = update.contractId := hreverts.exact.keyed _ _ hbefore
  rw [← hid] at hbefore
  refine { hreverts with
    exact := ?_, keyed := ?_, contracts := ?_, history := ?_ }
  · exact (hreverts.exact.removeContract hbefore).putContract hallowed.insertable
  · intro change hchange
    rcases List.mem_append.mp hchange with hold | hnew
    · exact hreverts.keyed change hold
    · rw [List.mem_singleton] at hnew
      subst hnew
      intro image himage
      cases himage
      exact hid
  · intro affected
    obtain ⟨affected', hreplay⟩ := hreverts.contracts (affected ++ [before.contractId])
    refine ⟨affected', ?_⟩
    rw [undoContracts_append, ← hid]
    dsimp only [ChainTables.afterTransition]
    have hafter : (before.updated update).contractId = before.contractId := rfl
    rw [undoContractChange_replace hreverts.exact hbefore hafter hallowed.insertable]
    exact hreplay
  · have habsent : origin.contractHistory[historyKey update.contractId delta.position]? = none := by
      rw [← hreverts.history, Table.row_eraseAll, hallowed.newEntry, ite_self]
    rw [List.map_append, List.map_singleton]
    exact Table.eraseAll_insert_journalled _ hreverts.history habsent

include hreverts in
theorem storeTransaction (affected : List ContractId)
    (hposition : origin.transactions[delta.position]? = none)
    (houtputs : ∀ outpoint ∈ delta.allOutpoints, origin.outputs[outpoint]? = none) :
    (write.storeTransaction delta affected).Reverts hashing origin := by
  refine { hreverts with transactions := ?_, outputs := ?_ }
  · exact Table.eraseAll_insert_journalled _ hreverts.transactions hposition
  · have hkeys : (delta.allOutpoints.map fun outpoint =>
        (outpoint, (⟨delta.position, outpoint⟩ : StoredOutputRef))).map
          Prod.fst = delta.allOutpoints := by
      simp [Function.comp_def]
    have habsent : ∀ row ∈ delta.allOutpoints.map fun outpoint =>
        (outpoint, (⟨delta.position, outpoint⟩ : StoredOutputRef)),
        origin.outputs[row.1]? = none := by
      intro row hrow
      obtain ⟨outpoint, hmem, rfl⟩ := List.mem_map.mp hrow
      exact houtputs outpoint hmem
    have herase := Table.eraseAll_insertAll_journalled hreverts.outputs habsent
    rw [hkeys] at herase
    exact herase

include hreverts in
theorem withJournal (journal : EventJournal) :
    Reverts hashing origin { write with journal } :=
  { hreverts with }

include hreverts in
theorem applyChainTransaction (hposition : origin.transactions[delta.position]? = none)
    (houtputs : ∀ outpoint ∈ delta.allOutpoints, origin.outputs[outpoint]? = none)
    (happly : write.applyChainTransaction hashing anchor delta = .ok next) :
    next.Reverts hashing origin := by
  simp only [BlockWrite.applyChainTransaction, bind_eq_ok, pure_eq_ok] at happly
  obtain ⟨-, -, -, -, created, hcreated, updated, hupdated, journal, -, rfl⟩ := happly
  have hcreatedReverts : created.Reverts hashing origin :=
    foldlM_invariant (Reverts hashing origin)
      (fun _ _ _ hs hstep => hs.createContract hstep) _ hreverts hcreated
  have hupdatedReverts : updated.Reverts hashing origin :=
    foldlM_invariant (Reverts hashing origin)
      (fun _ _ _ hs hstep => hs.applyUpdate hstep) _ hcreatedReverts hupdated
  exact (hupdatedReverts.storeTransaction _ hposition houtputs).withJournal journal

include hreverts in
theorem insertRecoveryHint {hint : RecoveryHintDelta}
    (hinsert : write.insertRecoveryHint hint = .ok next) :
    next.Reverts hashing origin := by
  obtain ⟨habsent, rfl⟩ := insertRecoveryHint_eq_ok.mp hinsert
  refine { hreverts with hints := ?_ }
  have horigin : origin.recoveryHints[hint.location]? = none := by
    rw [← hreverts.hints, Table.row_eraseAll, habsent, ite_self]
  exact Table.eraseAll_insert_journalled _ hreverts.hints horigin

theorem sameIndexed_syncState (record : ContractRecord) (syncState : ContractSyncState) :
    record.SameIndexed { record with syncState } :=
  ⟨rfl, rfl, rfl, rfl, rfl⟩

theorem undoProgress_append (changes : List BackfillProgressUndo) (change : BackfillProgressUndo)
    (progress : Table ContractId BackfillProgress) :
    (changes ++ [change]).reverse.foldl undoProgressChange progress =
      changes.reverse.foldl undoProgressChange (undoProgressChange progress change) := by
  rw [List.reverse_append, List.reverse_singleton, List.singleton_append, List.foldl_cons]

include hreverts in
theorem advanceCatching {delta : BlockDelta}
    (hprogress : write.chain.backfillProgress[progress.contractId]? = some progress)
    (hjournalled : delta.transitionCount progress.contractId ≠ 0 → progress.contractId ∈
        write.undo.contractChanges.map ContractUndo.contractId)
    (hadvance : write.advanceCatching hashing delta blockDigest nextHeight progress = .ok next) :
    next.Reverts hashing origin := by
  obtain ⟨before, hbefore, hcases⟩ := advanceCatching_eq_ok hadvance
  rcases hcases with ⟨-, hinsertable, journal, -, rfl⟩ | ⟨-, rfl⟩
  swap
  · exact hreverts
  have hid : before.contractId = progress.contractId := hreverts.exact.keyed _ _ hbefore
  rw [← hid] at hbefore hjournalled
  have hcursor : undoProgressChange (write.chain.backfillProgress.insert progress.contractId
        { progress with
          pinnedTip := delta.anchor
          nextPosition := ⟨nextHeight, 0⟩
          lastApplied := some (delta.anchor, blockDigest) })
      ⟨progress.contractId, some progress⟩ = write.chain.backfillProgress := by
    simp only [undoProgressChange, Table.insert_erase_self, Table.insert_insert_self]
    exact Table.insert_of_present hprogress
  refine { hreverts with
    exact := ?_, keyed := ?_, contracts := ?_, progress := ?_ }
  · exact (hreverts.exact.removeContract hbefore).putContract hinsertable
  · dsimp only [promoted]
    intro change hchange
    split at hchange
    · rcases List.mem_append.mp hchange with hold | hnew
      · exact hreverts.keyed change hold
      · rw [List.mem_singleton] at hnew
        subst hnew
        intro image himage
        cases himage
        exact hid
    · exact hreverts.keyed change hchange
  · intro affected
    dsimp only [promoted]
    rw [← hid]
    split
    · obtain ⟨affected', hreplay⟩ := hreverts.contracts (affected ++ [before.contractId])
      refine ⟨affected', ?_⟩
      have hafter : ({ before with syncState := .ready delta.anchor } :
          ContractRecord).contractId = before.contractId := rfl
      rw [undoContracts_append, undoContractChange_replace hreverts.exact
        hbefore hafter hinsertable]
      exact hreplay
    · next hcount =>
      obtain ⟨affected', hreplay⟩ := hreverts.contracts affected
      refine ⟨affected', ?_⟩
      have hsame := sameIndexed_syncState before (.ready delta.anchor)
      rw [ContractTables.putContract_sameIndexed hsame,
        hreverts.exact.putContract_removeContract hbefore]
      apply undoContracts_sameIndexed hsame
      · intro change hchange
        exact hreverts.keyed change (List.mem_reverse.mp hchange)
      · rw [List.map_reverse, List.mem_reverse]
        exact hjournalled hcount
      · exact hreverts.exact.keyed
      · exact hbefore
      · exact hreplay
  · dsimp only [promoted]
    rw [undoProgress_append, hcursor]
    exact hreverts.progress

end BlockWrite.Reverts

/-! ## Contracts with a before-image -/

namespace BlockWrite

variable {hashing : Hashing} {write next : BlockWrite}

def journalled (write : BlockWrite) : List ContractId :=
  write.undo.contractChanges.map ContractUndo.contractId

theorem journalled_createContract {contract : ContractRecord}
    (hcreate : write.createContract hashing delta contract = .ok next) :
    next.journalled = write.journalled ++ [contract.contractId] := by
  obtain ⟨-, -, rfl⟩ := createContract_eq_ok.mp hcreate
  simp [journalled]

theorem journalled_applyUpdate {update : StateUpdate}
    (hupdate : write.applyUpdate hashing delta update = .ok next) :
    next.journalled = write.journalled ++ [update.contractId] := by
  obtain ⟨before, -, -, rfl⟩ := applyUpdate_eq_ok.mp hupdate
  simp [journalled]

theorem journalled_applyChainTransaction
    (happly : write.applyChainTransaction hashing anchor delta = .ok next) :
    next.journalled = write.journalled ++ (delta.createdContracts.map ContractRecord.contractId ++
        delta.stateUpdates.map StateUpdate.contractId) := by
  simp only [applyChainTransaction, bind_eq_ok, pure_eq_ok] at happly
  obtain ⟨-, -, -, -, created, hcreated, updated, hupdated, journal, -, rfl⟩ := happly
  have hcreatedLog := foldlM_appends journalled
    (fun contract : ContractRecord => [contract.contractId])
    (fun _ _ _ hstep => journalled_createContract hstep) _ hcreated
  have hupdatedLog := foldlM_appends journalled (fun update : StateUpdate => [update.contractId])
    (fun _ _ _ hstep => journalled_applyUpdate hstep) _ hupdated
  have hstored : journalled { updated.storeTransaction delta (sortDedupContracts
          (delta.createdContracts.map ContractRecord.contractId ++
            delta.stateUpdates.map StateUpdate.contractId)) with journal } =
      updated.journalled := rfl
  rw [hstored, hupdatedLog, hcreatedLog, List.append_assoc,
    List.map_eq_flatMap, List.map_eq_flatMap]

theorem journalled_insertRecoveryHint {hint : RecoveryHintDelta}
    (hinsert : write.insertRecoveryHint hint = .ok next) :
    next.journalled = write.journalled := by
  obtain ⟨-, rfl⟩ := insertRecoveryHint_eq_ok.mp hinsert
  rfl

/-! ## A whole block -/

namespace Reverts

variable {origin : ChainTables} {delta : BlockDelta}

def CursorsCurrent (rows : List BackfillProgress) (write : BlockWrite) : Prop :=
  (rows.map BackfillProgress.contractId).Nodup ∧
    ∀ progress ∈ rows, write.chain.backfillProgress[progress.contractId]? = some progress

theorem cursorsCurrent_advance {rest : List BackfillProgress}
    (hcurrent : CursorsCurrent (progress :: rest) write)
    (hadvance : write.advanceCatching hashing delta blockDigest nextHeight progress = .ok next) :
    CursorsCurrent rest next := by
  obtain ⟨hnodup, hrows⟩ := hcurrent
  rw [List.map_cons, List.nodup_cons] at hnodup
  refine ⟨hnodup.2, ?_⟩
  intro other hother
  have hrow := hrows other (List.mem_cons_of_mem _ hother)
  obtain ⟨before, -, hcases⟩ := advanceCatching_eq_ok hadvance
  rcases hcases with ⟨-, -, journal, -, rfl⟩ | ⟨-, rfl⟩
  · have hne : progress.contractId ≠ other.contractId := by
      intro hsame
      exact hnodup.1 (hsame ▸ List.mem_map_of_mem hother)
    dsimp only [promoted]
    rw [Table.row_insert, if_neg hne]
    exact hrow
  · exact hrow

theorem journalled_advance (hmem : c ∈ write.journalled)
    (hadvance : write.advanceCatching hashing delta blockDigest nextHeight progress = .ok next) :
    c ∈ next.journalled := by
  obtain ⟨before, -, hcases⟩ := advanceCatching_eq_ok hadvance
  rcases hcases with ⟨-, -, journal, -, rfl⟩ | ⟨-, rfl⟩
  · unfold journalled promoted at *
    dsimp only
    split
    · simp only [List.map_append, List.mem_append]
      exact .inl hmem
    · exact hmem
  · exact hmem

theorem advanceAll
    (rows : List BackfillProgress) (hreverts : write.Reverts hashing origin)
    (hcurrent : CursorsCurrent rows write)
    (hjournalled : ∀ c, delta.transitionCount c ≠ 0 → c ∈ write.journalled)
    (hadvance : rows.foldlM
      (BlockWrite.advanceCatching hashing delta blockDigest nextHeight) write = .ok next) :
    next.Reverts hashing origin := by
  induction rows generalizing write with
  | nil =>
    simp only [List.foldlM_nil, pure_eq_ok] at hadvance
    exact hadvance ▸ hreverts
  | cons progress rest ih =>
    simp only [List.foldlM_cons, bind_eq_ok] at hadvance
    obtain ⟨mid, hmid, hrest⟩ := hadvance
    have hprogress := hcurrent.2 progress List.mem_cons_self
    exact ih (hreverts.advanceCatching hprogress (hjournalled _) hmid)
      (cursorsCurrent_advance hcurrent hmid)
      (fun c hc => journalled_advance (hjournalled c hc) hmid) hrest

/-- Every cursor stands under the id of its contract. -/
def ProgressKeyed (progress : Table ContractId BackfillProgress) : Prop :=
  ∀ (c : ContractId) (item : BackfillProgress), progress[c]? = some item → item.contractId = c

theorem cursorsCurrent_read (hkeyed : ProgressKeyed write.chain.backfillProgress)
    (keep : BackfillProgress → Bool) :
    CursorsCurrent ((write.chain.backfillProgress.toList.map Prod.snd).filter keep)
      write := by
  have hids : ∀ row ∈ write.chain.backfillProgress.toList, row.2.contractId = row.1 := by
    rintro ⟨c, item⟩ hrow
    exact hkeyed c item (Table.mem_toList_iff.mp hrow)
  constructor
  · apply (List.filter_sublist.map _).nodup
    rw [List.map_map]
    have hmap : write.chain.backfillProgress.toList.map (BackfillProgress.contractId ∘ Prod.snd) =
        write.chain.backfillProgress.toList.map Prod.fst :=
      List.map_congr_left hids
    rw [hmap]
    exact Table.nodup_keys _
  · intro item hitem
    obtain ⟨row, hrow, rfl⟩ := List.mem_map.mp (List.mem_of_mem_filter hitem)
    rw [hids row hrow]
    exact Table.mem_toList_iff.mp hrow

end Reverts

theorem unchanged_applyChainTransaction {γ : Type} (field : BlockWrite → γ)
    (hcreate : ∀ (w : BlockWrite) (tables : ContractTables)
      (changes : List ContractUndo),
      field { w with
        chain := { w.chain with contractTables := tables }
        undo := { w.undo with contractChanges := changes } } = field w)
    (hupdate : ∀ (w : BlockWrite) (tables : ContractTables)
      (history : Table HistoryKey StoredHistoryEntry)
      (changes : List ContractUndo) (keys : List (ContractId × ChainPosition)),
      field { w with
        chain := { w.chain with
          contractTables := tables
          contractHistory := history }
        undo := { w.undo with
          contractChanges := changes
          historyKeys := keys } } = field w)
    (hstore : ∀ (w : BlockWrite) (delta : ChainTxDelta)
      (affected : List ContractId), field (w.storeTransaction delta affected) = field w)
    (hevent : ∀ (w : BlockWrite) (event : StoredEvent)
      (journal : EventJournal), w.journal.appendEvent event = .ok journal →
        field { w with journal } = field w)
    (happly : write.applyChainTransaction hashing anchor delta = .ok next) :
    field next = field write := by
  simp only [applyChainTransaction, bind_eq_ok, pure_eq_ok] at happly
  obtain ⟨-, -, -, -, created, hcreated, updated, hupdated, journal, hjournal, rfl⟩ := happly
  have hcreatedKept : field created = field write :=
    foldlM_unchanged field (fun _ _ _ hstep => by
      obtain ⟨-, -, rfl⟩ := createContract_eq_ok.mp hstep
      exact hcreate _ _ _) _ hcreated
  have hupdatedKept : field updated = field created :=
    foldlM_unchanged field (fun _ _ _ hstep => by
      obtain ⟨before, -, -, rfl⟩ := applyUpdate_eq_ok.mp hstep
      exact hupdate _ _ _ _ _) _ hupdated
  rw [hevent _ _ _ hjournal, hstore, hupdatedKept, hcreatedKept]

theorem progress_applyChainTransaction
    (happly : write.applyChainTransaction hashing anchor delta = .ok next) :
    next.chain.backfillProgress = write.chain.backfillProgress :=
  unchanged_applyChainTransaction (fun w => w.chain.backfillProgress)
    (fun _ _ _ => rfl) (fun _ _ _ _ _ => rfl) (fun _ _ _ => rfl) (fun _ _ _ _ => rfl) happly

theorem advanceCatching_kept {delta : BlockDelta}
    (hadvance : write.advanceCatching hashing delta blockDigest nextHeight progress = .ok next) :
    (next.chain.blocks, next.journal.epoch) = (write.chain.blocks, write.journal.epoch) := by
  obtain ⟨before, -, hcases⟩ := advanceCatching_eq_ok hadvance
  rcases hcases with ⟨-, -, journal, hepoch, rfl⟩ | ⟨-, rfl⟩
  · rw [← hepoch]
    rfl
  · rfl

theorem exists_update_of_transitionCount {delta : BlockDelta}
    (hcount : delta.transitionCount c ≠ 0) :
    ∃ transaction ∈ delta.relevantTransactions,
      c ∈ transaction.stateUpdates.map StateUpdate.contractId := by
  have hpos : 0 < delta.transitionCount c := Nat.pos_of_ne_zero hcount
  obtain ⟨update, hupdate⟩ := List.exists_mem_of_length_pos hpos
  rw [List.mem_filter, List.mem_flatMap] at hupdate
  obtain ⟨⟨transaction, htransaction, hmem⟩, hid⟩ := hupdate
  exact ⟨transaction, htransaction, List.mem_map.mpr ⟨update, hmem, of_decide_eq_true hid⟩⟩

/-- The three passes of a delta: its transactions in block order, its hints,
and the contracts which wait for the block.  No pass before the last one moves
a cursor, and every transition is journalled by then. -/
theorem applyDelta_ok {delta : BlockDelta} (happly : write.applyDelta hashing delta = .ok next) :
    ∃ applied hinted, (delta.relevantTransactions.insertionSort fun a b =>
          a.position.txIndex ≤ b.position.txIndex).foldlM
        (applyChainTransaction hashing delta.anchor) write = .ok applied ∧
      delta.recoveryHints.foldlM insertRecoveryHint applied = .ok hinted ∧
      hinted.chain.backfillProgress = write.chain.backfillProgress ∧
      (∀ c, delta.transitionCount c ≠ 0 → c ∈ hinted.journalled) ∧
      (next = hinted ∨ ∃ nextHeight, nextHeight = delta.anchor.height + 1 ∧
        ((hinted.chain.backfillProgress.toList.map Prod.snd).filter fun progress =>
              progress.nextPosition.blockHeight = delta.anchor.height).foldlM
          (advanceCatching hashing delta (hashing.digest delta) nextHeight)
          hinted = .ok next) := by
  simp only [BlockWrite.applyDelta, bind_eq_ok] at happly
  obtain ⟨applied, happlied, hinted, hhinted, hadvance⟩ := happly
  refine ⟨applied, hinted, happlied, hhinted, ?_, ?_, ?_⟩
  · have happliedKept := foldlM_unchanged (fun w : BlockWrite => w.chain.backfillProgress)
      (fun _ _ _ hstep => progress_applyChainTransaction hstep) _ happlied
    have hhintedKept := foldlM_unchanged (fun w : BlockWrite => w.chain.backfillProgress)
      (fun _ _ _ hstep => by
        obtain ⟨-, rfl⟩ := insertRecoveryHint_eq_ok.mp hstep
        rfl) _ hhinted
    exact hhintedKept.trans happliedKept
  · intro c hcount
    obtain ⟨transaction, htransaction, hupdate⟩ := exists_update_of_transitionCount hcount
    have happliedLog := foldlM_appends journalled (fun transaction : ChainTxDelta =>
        transaction.createdContracts.map ContractRecord.contractId ++
          transaction.stateUpdates.map StateUpdate.contractId)
      (fun _ _ _ hstep => journalled_applyChainTransaction hstep) _ happlied
    have hhintedLog := foldlM_unchanged journalled
      (fun _ _ _ hstep => journalled_insertRecoveryHint hstep) _ hhinted
    rw [hhintedLog, happliedLog]
    apply List.mem_append_right
    rw [List.mem_flatMap]
    exact ⟨transaction, List.mem_insertionSort _ |>.mpr htransaction,
      List.mem_append_right _ hupdate⟩
  · simp only [advanceCatchingThroughCanonicalBlock] at hadvance
    split at hadvance
    · cases hadvance
      exact .inl rfl
    · simp only [bind_eq_ok, okOr_eq_ok, checkedAdd_eq_some] at hadvance
      obtain ⟨nextHeight, ⟨hnext, -⟩, hadvance⟩ := hadvance
      exact .inr ⟨nextHeight, hnext.symm, hadvance⟩

theorem kept_applyDelta {delta : BlockDelta} (happly : write.applyDelta hashing delta = .ok next) :
    next.chain.blocks = write.chain.blocks ∧
      next.journal.epoch = write.journal.epoch := by
  obtain ⟨applied, hinted, happlied, hhinted, -, -, hadvance⟩ := applyDelta_ok happly
  have happliedKept := foldlM_unchanged (fun w : BlockWrite => (w.chain.blocks, w.journal.epoch))
    (fun _ _ _ hstep => unchanged_applyChainTransaction
      (fun w => (w.chain.blocks, w.journal.epoch)) (fun _ _ _ => rfl)
      (fun _ _ _ _ _ => rfl) (fun _ _ _ => rfl)
      (fun _ _ _ happend => by
        rw [EventJournal.appendEvent_epoch happend]) hstep) _ happlied
  have hhintedKept := foldlM_unchanged (fun w : BlockWrite => (w.chain.blocks, w.journal.epoch))
    (fun _ _ _ hstep => by
      obtain ⟨-, rfl⟩ := insertRecoveryHint_eq_ok.mp hstep
      rfl) _ hhinted
  rw [happliedKept, Prod.mk.injEq] at hhintedKept
  rcases hadvance with rfl | ⟨nextHeight, -, hadvance⟩
  · exact hhintedKept
  · have hadvanceKept := foldlM_unchanged (fun w : BlockWrite => (w.chain.blocks, w.journal.epoch))
      (fun _ _ _ hstep => advanceCatching_kept hstep) _ hadvance
    rw [Prod.mk.injEq] at hadvanceKept
    exact ⟨hadvanceKept.1.trans hhintedKept.1, hadvanceKept.2.trans hhintedKept.2⟩

/-- Applying a delta to a write in progress keeps the way back to `origin`,
provided the block brings no position and no output `origin` already has. -/
theorem Reverts.applyDelta {origin : ChainTables} {delta : BlockDelta}
    (hreverts : write.Reverts hashing origin)
    (hprogress : Reverts.ProgressKeyed write.chain.backfillProgress)
    (hpositions : ∀ transaction ∈ delta.relevantTransactions,
      origin.transactions[transaction.position]? = none)
    (houtputs : ∀ transaction ∈ delta.relevantTransactions,
      ∀ outpoint ∈ transaction.allOutpoints, origin.outputs[outpoint]? = none)
    (happly : write.applyDelta hashing delta = .ok next) :
    next.Reverts hashing origin := by
  obtain ⟨applied, hinted, happlied, hhinted, hkept, hjournalled, hadvance⟩ := applyDelta_ok happly
  have happliedReverts : applied.Reverts hashing origin := by
    refine foldlM_mem_invariant (Reverts hashing origin) ?_ hreverts happlied
    intro w transaction w' htransaction hw hstep
    have hrelevant := (List.mem_insertionSort _).mp htransaction
    exact hw.applyChainTransaction (hpositions transaction hrelevant)
      (houtputs transaction hrelevant) hstep
  have hhintedReverts : hinted.Reverts hashing origin :=
    foldlM_invariant (Reverts hashing origin)
      (fun _ _ _ hs hstep => hs.insertRecoveryHint hstep) _ happliedReverts hhinted
  rcases hadvance with rfl | ⟨nextHeight, -, hadvance⟩
  · exact hhintedReverts
  · refine hhintedReverts.advanceAll _ ?_ hjournalled hadvance
    exact Reverts.cursorsCurrent_read (hkept ▸ hprogress) _

end BlockWrite

end DeadcatNode
