import DeadcatNode.NodeStoreUndo
import Mathlib.Logic.Relation

/-!
# Primitive writes of the index

Canonical application, late registration and backfill change the store by the
same few writes: a row is written and, when the undo row of its height is
retained, entered there.  This module names these writes and shows that each
operation is a sequence of them.  Invariants of the store are then proved once
per write.
-/

namespace DeadcatNode

open Checked

variable {activation : ℕ}

/-- The tables derived from the chain together with the retained undo rows. -/
structure Index where
  chain : ChainTables
  undoBlocks : Table ℕ UndoBlock

def Store.index (store : Store) : Index := ⟨store.chain, store.undoBlocks⟩

def StoredTransaction.allOutpoints (row : StoredTransaction) : List OutPoint :=
  (List.range row.rawTx.output.length).map fun vout => ⟨row.txid, vout⟩

/-- The transaction of a row stands in the block at the row's position. -/
structure StoredBlock.Lists (block : StoredBlock) (row : StoredTransaction) : Prop where
  txid : block.orderedTxids[row.position.txIndex]? = some row.txid
  hash : row.blockHash = block.anchor.hash

namespace Index

/-- Store a transaction with a reference row for each of its outputs. -/
def putTransaction (index : Index) (row : StoredTransaction) : Index where
  chain := { index.chain with
    transactions := index.chain.transactions.insert row.position row
    outputs := index.chain.outputs.insertAll
      (row.allOutpoints.map fun outpoint => (outpoint, ⟨row.position, outpoint⟩)) }
  undoBlocks := modifyUndo index.undoBlocks row.position.blockHeight
    fun undo => { undo with
      transactionPositions := undo.transactionPositions ++ [row.position]
      outputOutpoints := undo.outputOutpoints ++ row.allOutpoints }

def setAffected (index : Index) (row : StoredTransaction) (affected : List ContractId) : Index :=
  { index with
    chain := { index.chain with
      transactions := index.chain.transactions.insert row.position
        { row with affectedContractIds := affected } } }

def createContract (hashing : Hashing) (height : ℕ) (index : Index)
    (record : ContractRecord) : Index where
  chain := { index.chain with
    contractTables := index.chain.contractTables.putContract hashing record }
  undoBlocks := modifyUndo index.undoBlocks height fun undo => { undo with
    contractChanges := undo.contractChanges ++ [⟨record.contractId, none⟩] }

/-- Replace the record of a contract, with a before-image or without. -/
def replaceContract (hashing : Hashing) (height : ℕ) (journalled : Bool)
    (index : Index) (before after : ContractRecord) : Index where
  chain := { index.chain with
    contractTables := (index.chain.contractTables.removeContract hashing
      before).putContract hashing after }
  undoBlocks := modifyUndo index.undoBlocks height fun undo => { undo with
    contractChanges :=
      if journalled then
        undo.contractChanges ++ [⟨before.contractId, some before⟩]
      else undo.contractChanges }

def putHistory (index : Index) (contractId : ContractId) (entry : StoredHistoryEntry) : Index where
  chain := { index.chain with
    contractHistory := index.chain.contractHistory.insert
      (historyKey contractId entry.position) entry }
  undoBlocks := modifyUndo index.undoBlocks entry.position.blockHeight
    fun undo => { undo with
      historyKeys := undo.historyKeys ++ [(contractId, entry.position)] }

def putHint (index : Index) (hint : StoredRecoveryHint) : Index where
  chain := { index.chain with
    recoveryHints := index.chain.recoveryHints.insert hint.location hint }
  undoBlocks := modifyUndo index.undoBlocks hint.location.position.blockHeight
    fun undo => { undo with
      recoveryLocations := undo.recoveryLocations ++ [hint.location] }

def setHint (index : Index) (location : RecoveryHintLocation) (hint : StoredRecoveryHint) : Index :=
  { index with
    chain := { index.chain with
      recoveryHints := index.chain.recoveryHints.insert location hint } }

def putProgress (index : Index) (item : BackfillProgress) : Index :=
  { index with
    chain := { index.chain with
      backfillProgress := index.chain.backfillProgress.insert item.contractId item } }

def journalProgress (height : ℕ) (index : Index) (changes : List BackfillProgressUndo) : Index :=
  { index with
    undoBlocks := modifyUndo index.undoBlocks height fun undo => { undo with
      backfillProgressChanges := undo.backfillProgressChanges ++ changes } }

/-- A contract may be written at the tip, or where its cursor stands while it
is catching up. -/
def PlacedAt (index : Index) (height : ℕ) (before : ContractRecord) : Prop :=
  height = index.chain.tip.height ∨ before.syncState.isCatchingUp = true ∧
      ∃ cursor, index.chain.backfillProgress[before.contractId]? =
          some cursor ∧ cursor.nextPosition.blockHeight = height

/-- The pin of a cursor is not below a height, unless the contract is catching
up anyway. -/
def PinnedFor (index : Index) (height : ℕ) (item : BackfillProgress) : Prop :=
  height ≤ item.pinnedTip.height ∨ ∃ record : ContractRecord,
      index.chain.contractTables.contracts[item.contractId]? = some record ∧
        record.syncState.isCatchingUp = true

/-- The cursor of a contract moves past a height, once it has been journalled
there.  If the contract is still catching up then a pin which has been reached
is extended. -/
structure Advances (index : Index) (height : ℕ) (c : ContractId)
    (old : BackfillProgress) (syncState : ContractSyncState) (item : BackfillProgress) : Prop where
  current : index.chain.backfillProgress[c]? = some old
  contractId : item.contractId = c
  at_height : old.nextPosition.blockHeight = height
  next : item.nextPosition.blockHeight = height + 1
  journalled : ∀ undo, index.undoBlocks[height]? = some undo →
    ⟨c, some old⟩ ∈ undo.backfillProgressChanges
  ready : syncState.isCatchingUp = false → height = index.chain.tip.height
  pinned : syncState.isCatchingUp = true → height < index.chain.tip.height ∧
      ∃ block, index.chain.blocks[height]? = some block ∧ (item.pinnedTip = index.chain.tip ∨
          item.pinnedTip = old.pinnedTip ∧ old.pinnedTip ≠ block.anchor)

/-- The contracts whose records may be replaced, and the records which may be
stored as new ones. -/
structure Scope where
  touched : Set ContractId
  created : Set ContractRecord

/-- One write at a height of the branch, above the height of the checkpoint. -/
inductive Write (hashing : Hashing) (activation height : ℕ) (scope : Scope) :
    Index → Index → Prop where
  | putTransaction {index : Index} {row : StoredTransaction} {block : StoredBlock}
      (hheight : row.position.blockHeight = height)
      (hblock : index.chain.blocks[height]? = some block) (hlists : block.Lists row)
      (hfresh : index.chain.transactions[row.position]? = none) :
      Write hashing activation height scope index (index.putTransaction row)
  | setAffected {index : Index} {row : StoredTransaction} (affected : List ContractId)
      (hrow : index.chain.transactions[row.position]? = some row) :
      Write hashing activation height scope index (index.setAffected row affected)
  | createContract {index : Index} {record : ContractRecord} {row : StoredTransaction}
      (hheight : record.creationPosition.blockHeight = height)
      (hinsertable : index.chain.contractTables.Insertable hashing record)
      (hrow : index.chain.transactions[record.creationPosition]? = some row)
      (hproduced : ∀ tracked ∈ record.outpoints, tracked.outpoint ∈ row.allOutpoints)
      (hcreated : record ∈ scope.created) :
      Write hashing activation height scope index (index.createContract hashing height record)
  | applyTransition {index : Index} {before after : ContractRecord}
      {entry : StoredHistoryEntry} {row : StoredTransaction}
      (hheight : entry.position.blockHeight = height) (htouched : before.contractId ∈ scope.touched)
      (hbefore : index.chain.contractTables.contracts[before.contractId]? = some before)
      (hid : after.contractId = before.contractId)
      (hinsertable : (index.chain.contractTables.removeContract hashing
        before).Insertable hashing after)
      (hblock : (index.chain.blocks[height]?).isSome)
      (hrow : index.chain.transactions[entry.position]? = some row)
      (hproduced : ∀ tracked ∈ after.outpoints, tracked.outpoint ∈ row.allOutpoints)
      (hstate : entry.newState = after.state)
      (hentry : index.chain.contractHistory[historyKey before.contractId entry.position]? = none)
      (hkept : after.creationPosition = before.creationPosition ∧
        after.syncState = before.syncState)
      (hplace : index.PlacedAt height before) :
      Write hashing activation height scope index
        ((index.replaceContract hashing height true before after).putHistory
          before.contractId entry)
  | advance {index : Index} {before : ContractRecord}
      {syncState : ContractSyncState} {journalled : Bool} {old item : BackfillProgress}
      (htouched : before.contractId ∈ scope.touched)
      (hbefore : index.chain.contractTables.contracts[before.contractId]? = some before)
      (hcatching : before.syncState.isCatchingUp = true)
      (hinsertable : (index.chain.contractTables.removeContract hashing
        before).Insertable hashing { before with syncState })
      (hjournalled : journalled = false → ∀ undo, index.undoBlocks[height]? = some undo →
          before.contractId ∈ undo.contractChanges.map ContractUndo.contractId)
      (hadvances : index.Advances height before.contractId old syncState item)
      (habove : activation < item.nextPosition.blockHeight) :
      Write hashing activation height scope index
        ((index.replaceContract hashing height journalled before
          { before with syncState }).putProgress item)
  | putHint {index : Index} {hint : StoredRecoveryHint}
      (hheight : hint.location.position.blockHeight = height)
      (hblock : (index.chain.blocks[height]?).isSome) :
      Write hashing activation height scope index (index.putHint hint)
  | setHint {index : Index} {location : RecoveryHintLocation} {old hint : StoredRecoveryHint}
      (hold : index.chain.recoveryHints[location]? = some old) :
      Write hashing activation height scope index (index.setHint location hint)
  | register {index : Index} {record : ContractRecord}
      {row : StoredTransaction} {item : BackfillProgress}
      (hheight : record.creationPosition.blockHeight = height)
      (hinsertable : index.chain.contractTables.Insertable hashing record)
      (hrow : index.chain.transactions[record.creationPosition]? = some row)
      (hproduced : ∀ tracked ∈ record.outpoints, tracked.outpoint ∈ row.allOutpoints)
      (hstarts : item.Starts index.chain.tip record) (habove : activation < height)
      (hcreated : record ∈ scope.created) :
      Write hashing activation height scope index
        (((index.createContract hashing height record).journalProgress height
          [⟨record.contractId, none⟩]).putProgress item)
  | journalCursors {index : Index} {items : List BackfillProgress}
      (hitems : ∀ item ∈ items, index.chain.backfillProgress[item.contractId]? = some item ∧
          item.nextPosition.blockHeight = height ∧
          index.PinnedFor height item)
      (habove : activation < height) :
      Write hashing activation height scope index
        (index.journalProgress height (items.map fun item => ⟨item.contractId, some item⟩))

abbrev Writes (hashing : Hashing) (activation height : ℕ) (scope : Scope) : Index → Index → Prop :=
  Relation.ReflTransGen (Write hashing activation height scope)

end Index

/-! ## Canonical application -/

/-- A block may change every contract and stores the ones it creates. -/
def BlockDelta.scope (delta : BlockDelta) : Index.Scope := ⟨Set.univ, delta.created⟩

theorem modifyUndo_insert_self (undoBlocks : Table ℕ UndoBlock) (height : ℕ)
    (undo : UndoBlock) (change : UndoBlock → UndoBlock) :
    modifyUndo (undoBlocks.insert height undo) height change =
      undoBlocks.insert height (change undo) := by
  simp only [modifyUndo, Table.row_insert, if_true, Table.insert_insert_self]

namespace BlockWrite

def index (hashing : Hashing) (delta : BlockDelta)
    (undoBlocks : Table ℕ UndoBlock) (write : BlockWrite) : Index where
  chain := { write.chain with
    blocks := write.chain.blocks.insert delta.anchor.height (.ofDelta hashing delta)
    tip := delta.anchor }
  undoBlocks := undoBlocks.insert delta.anchor.height write.undo

abbrev Writes (hashing : Hashing) (activation : ℕ) (delta : BlockDelta)
    (undoBlocks : Table ℕ UndoBlock) (write next : BlockWrite) : Prop :=
  Index.Writes hashing activation delta.anchor.height delta.scope
    (write.index hashing delta undoBlocks) (next.index hashing delta undoBlocks)

section

variable {hashing : Hashing} {delta : BlockDelta} {undoBlocks : Table ℕ UndoBlock}
  {write next : BlockWrite} {transaction : ChainTxDelta} {contract : ContractRecord}
  {update : StateUpdate}

theorem index_storeTransaction (affected : List ContractId)
    (hheight : transaction.position.blockHeight = delta.anchor.height) :
    (write.storeTransaction transaction affected).index hashing delta undoBlocks =
      (write.index hashing delta undoBlocks).putTransaction (transaction.toRow affected) := by
  simp only [index, Index.putTransaction, ChainTxDelta.toRow, hheight, modifyUndo_insert_self]
  rfl

theorem index_createContract (delta : BlockDelta) (undoBlocks : Table ℕ UndoBlock)
    (hcreate : write.createContract hashing transaction contract = .ok next) :
    next.index hashing delta undoBlocks =
      (write.index hashing delta undoBlocks).createContract hashing
        delta.anchor.height contract := by
  obtain ⟨-, -, rfl⟩ := createContract_eq_ok.mp hcreate
  simp only [index, Index.createContract, modifyUndo_insert_self]

theorem index_applyUpdate
    {before : ContractRecord} (hheight : transaction.position.blockHeight = delta.anchor.height)
    (hid : before.contractId = update.contractId) :
    index hashing delta undoBlocks { write with
        chain := write.chain.afterTransition hashing transaction before update
        undo := { write.undo with
          contractChanges := write.undo.contractChanges ++ [⟨update.contractId, some before⟩]
          historyKeys := write.undo.historyKeys ++ [(update.contractId, transaction.position)] } } =
      ((write.index hashing delta undoBlocks).replaceContract hashing
        delta.anchor.height true before (before.updated update)).putHistory
          before.contractId (update.historyEntry transaction) := by
  have hentry : (update.historyEntry transaction).position = transaction.position := rfl
  simp only [index, Index.replaceContract, Index.putHistory, hentry, hheight,
    modifyUndo_insert_self, ChainTables.afterTransition, hid, if_true]

theorem createContract_storeTransaction {other : ChainTxDelta} (affected : List ContractId)
    (hcreate : write.createContract hashing transaction contract = .ok next) :
    (write.storeTransaction other affected).createContract hashing transaction
        contract = .ok (next.storeTransaction other affected) := by
  rw [createContract_eq_ok] at hcreate ⊢
  obtain ⟨hcreated, hinsertable, rfl⟩ := hcreate
  exact ⟨hcreated, hinsertable, rfl⟩

theorem applyUpdate_storeTransaction {other : ChainTxDelta} (affected : List ContractId)
    (hupdate : write.applyUpdate hashing transaction update = .ok next) :
    (write.storeTransaction other affected).applyUpdate hashing transaction
        update = .ok (next.storeTransaction other affected) := by
  rw [applyUpdate_eq_ok] at hupdate ⊢
  obtain ⟨before, hbefore, hallowed, rfl⟩ := hupdate
  refine ⟨before, hbefore, ?_, rfl⟩
  exact ⟨hallowed.state, hallowed.spentNodup, hallowed.spentAll,
    hallowed.spentOnly, hallowed.created, hallowed.insertable, hallowed.newEntry⟩

theorem mem_allOutpoints {outpoint : OutPoint} (htxid : outpoint.txid = transaction.txid)
    (hvout : outpoint.vout < transaction.rawTx.output.length) (affected : List ContractId) :
    outpoint ∈ (transaction.toRow affected).allOutpoints := by
  refine List.mem_map.mpr ⟨outpoint.vout, List.mem_range.mpr hvout, ?_⟩
  cases outpoint
  cases htxid
  rfl

/-- The tables are exact and the row of a transaction is in them. -/
def Holds (hashing : Hashing) (row : StoredTransaction) (write : BlockWrite) : Prop :=
  write.chain.contractTables.Exact hashing ∧ write.chain.transactions[row.position]? = some row

theorem createContract_writes {affected : List ContractId}
    (hshaped : transaction.Shaped hashing delta)
    (hcontract : contract ∈ transaction.createdContracts)
    (hholds : write.Holds hashing (transaction.toRow affected))
    (hcreate : write.createContract hashing transaction contract = .ok next) :
    next.Holds hashing (transaction.toRow affected) ∧
      write.Writes hashing activation delta undoBlocks next := by
  have hposition := (hshaped.created contract hcontract).position
  have hindex := index_createContract delta undoBlocks hcreate
  obtain ⟨hcreated, hinsertable, rfl⟩ := createContract_eq_ok.mp hcreate
  refine ⟨⟨hholds.1.putContract hinsertable, hholds.2⟩, ?_⟩
  rw [Writes, hindex]
  apply Relation.ReflTransGen.single
  refine .createContract (by rw [hposition, hshaped.height]) hinsertable
    (by rw [hposition]; exact hholds.2) ?_ ⟨_, hshaped.relevant, hcontract⟩
  intro tracked htracked
  obtain ⟨htxid, hvout⟩ := hcreated tracked htracked
  exact mem_allOutpoints htxid hvout affected

theorem index_block : (write.index hashing delta undoBlocks).chain.blocks[delta.anchor.height]? =
      some (.ofDelta hashing delta) := by
  simp [index]

theorem applyUpdate_writes {affected : List ContractId} (hshaped : transaction.Shaped hashing delta)
    (hholds : write.Holds hashing (transaction.toRow affected))
    (hupdate : write.applyUpdate hashing transaction update = .ok next) :
    next.Holds hashing (transaction.toRow affected) ∧
      write.Writes hashing activation delta undoBlocks next := by
  obtain ⟨before, hbefore, hallowed, rfl⟩ := applyUpdate_eq_ok.mp hupdate
  have hid : before.contractId = update.contractId := hholds.1.keyed _ _ hbefore
  rw [← hid] at hbefore
  refine ⟨⟨(hholds.1.removeContract hbefore).putContract hallowed.insertable, hholds.2⟩, ?_⟩
  rw [Writes, index_applyUpdate hshaped.height hid]
  apply Relation.ReflTransGen.single
  refine .applyTransition hshaped.height (Set.mem_univ _) hbefore rfl
    hallowed.insertable (by rw [index_block]; rfl) hholds.2 ?_ rfl
    (by rw [hid]; exact hallowed.newEntry) ⟨rfl, rfl⟩ (.inl rfl)
  intro tracked htracked
  obtain ⟨htxid, hvout⟩ := hallowed.created tracked htracked
  exact mem_allOutpoints htxid hvout affected

theorem applyChainTransaction_writes {anchor : ChainAnchor}
    (hshaped : transaction.Shaped hashing delta) (hexact : write.chain.contractTables.Exact hashing)
    (hfresh : write.chain.transactions[transaction.position]? = none)
    (happly : write.applyChainTransaction hashing anchor transaction = .ok next) :
    next.chain.contractTables.Exact hashing ∧ (∃ row, row.position = transaction.position ∧
        next.chain.transactions = write.chain.transactions.insert row.position row) ∧
      write.Writes hashing activation delta undoBlocks next := by
  simp only [applyChainTransaction, bind_eq_ok, pure_eq_ok] at happly
  obtain ⟨-, -, -, -, created, hcreated, updated, hupdated, journal, -, rfl⟩ := happly
  set affected := sortDedupContracts (transaction.createdContracts.map ContractRecord.contractId ++
      transaction.stateUpdates.map StateUpdate.contractId)
  -- The row of the transaction is written last; it may as well come first.
  have hcreated' := foldlM_commute (fun w : BlockWrite => w.storeTransaction transaction affected)
    (fun _ _ _ hstep => createContract_storeTransaction affected hstep) _ hcreated
  have hupdated' := foldlM_commute (fun w : BlockWrite => w.storeTransaction transaction affected)
    (fun _ _ _ hstep => applyUpdate_storeTransaction affected hstep) _ hupdated
  have hstored : write.Writes hashing activation delta undoBlocks
      (write.storeTransaction transaction affected) := by
    rw [Writes, index_storeTransaction affected hshaped.height]
    exact .single (.putTransaction hshaped.height index_block ⟨hshaped.listed, hshaped.hash⟩ hfresh)
  have hholds : (write.storeTransaction transaction affected).Holds hashing
      (transaction.toRow affected) := by
    refine ⟨hexact, ?_⟩
    simp [storeTransaction, ChainTxDelta.toRow]
  obtain ⟨hholdsCreated, hwritesCreated⟩ := foldlM_simulates (index hashing delta undoBlocks)
    (Holds hashing (transaction.toRow affected))
    (fun _ contract _ hmem hs hstep => createContract_writes hshaped hmem hs hstep) hholds hcreated'
  obtain ⟨hholdsUpdated, hwritesUpdated⟩ := foldlM_simulates (index hashing delta undoBlocks)
    (Holds hashing (transaction.toRow affected))
    (fun _ _ _ _ hs hstep => applyUpdate_writes hshaped hs hstep) hholdsCreated hupdated'
  refine ⟨hholdsUpdated.1, ⟨transaction.toRow affected, rfl, ?_⟩,
    (hstored.trans hwritesCreated).trans hwritesUpdated⟩
  have hcreatedKept : created.chain.transactions = write.chain.transactions :=
    foldlM_unchanged (fun w : BlockWrite => w.chain.transactions) (fun _ _ _ hstep => by
        obtain ⟨-, -, rfl⟩ := createContract_eq_ok.mp hstep
        rfl) _ hcreated
  have hupdatedKept : updated.chain.transactions = created.chain.transactions :=
    foldlM_unchanged (fun w : BlockWrite => w.chain.transactions) (fun _ _ _ hstep => by
        obtain ⟨before, -, -, rfl⟩ := applyUpdate_eq_ok.mp hstep
        rfl) _ hupdated
  rw [← hcreatedKept, ← hupdatedKept]
  rfl

theorem insertRecoveryHint_writes {hint : RecoveryHintDelta}
    (hheight : hint.location.position.blockHeight = delta.anchor.height)
    (hinsert : write.insertRecoveryHint hint = .ok next) :
    write.Writes hashing activation delta undoBlocks next := by
  obtain ⟨-, rfl⟩ := insertRecoveryHint_eq_ok.mp hinsert
  have hindex : index hashing delta undoBlocks { write with
        chain := { write.chain with
          recoveryHints := write.chain.recoveryHints.insert hint.location hint }
        undo := { write.undo with
          recoveryLocations := write.undo.recoveryLocations ++ [hint.location] } } =
      (write.index hashing delta undoBlocks).putHint hint := by
    simp only [index, Index.putHint, hheight, modifyUndo_insert_self]
  rw [Writes, hindex]
  exact .single (.putHint hheight (by rw [index_block]; rfl))

theorem applyTransactions_writes {anchor : ChainAnchor}
    (transactions : List ChainTxDelta) (hnodup : (transactions.map ChainTxDelta.position).Nodup)
    (hshaped : ∀ transaction ∈ transactions, transaction.Shaped hashing delta)
    (hexact : write.chain.contractTables.Exact hashing)
    (hfresh : ∀ transaction ∈ transactions, write.chain.transactions[transaction.position]? = none)
    (happly : transactions.foldlM
      (BlockWrite.applyChainTransaction hashing anchor) write = .ok next) :
    next.chain.contractTables.Exact hashing ∧
      write.Writes hashing activation delta undoBlocks next := by
  induction transactions generalizing write with
  | nil =>
    simp only [List.foldlM_nil, pure_eq_ok] at happly
    subst happly
    exact ⟨hexact, .refl⟩
  | cons transaction rest ih =>
    simp only [List.foldlM_cons, bind_eq_ok] at happly
    obtain ⟨mid, hmid, hrest⟩ := happly
    rw [List.map_cons, List.nodup_cons] at hnodup
    obtain ⟨hexactMid, ⟨row, hposition, hrows⟩, hwrites⟩ :=
      applyChainTransaction_writes (hshaped transaction List.mem_cons_self)
        hexact (hfresh transaction List.mem_cons_self) hmid
    have hfreshRest : ∀ other ∈ rest, mid.chain.transactions[other.position]? = none := by
      intro other hother
      have hne : row.position ≠ other.position := by
        rw [hposition]
        intro hsame
        exact hnodup.1 (hsame ▸ List.mem_map_of_mem hother)
      rw [hrows, Table.row_insert, if_neg hne]
      exact hfresh other (List.mem_cons_of_mem _ hother)
    obtain ⟨hexactNext, hwritesRest⟩ := ih hnodup.2
      (fun other hother => hshaped other (List.mem_cons_of_mem _ hother)) hexactMid hfreshRest hrest
    exact ⟨hexactNext, hwrites.trans hwritesRest⟩

theorem advanceCatching_writes {blockDigest : ℕ} {progress : BackfillProgress}
    (hexact : write.chain.contractTables.Exact hashing) (habove : activation < delta.anchor.height)
    (hcurrent : write.chain.backfillProgress[progress.contractId]? = some progress)
    (hat : progress.nextPosition.blockHeight = delta.anchor.height)
    (hjournalled : delta.transitionCount progress.contractId ≠ 0 →
      progress.contractId ∈ write.journalled)
    (hadvance : write.advanceCatching hashing delta blockDigest
      (delta.anchor.height + 1) progress = .ok next) :
    next.chain.contractTables.Exact hashing ∧
      write.Writes hashing activation delta undoBlocks next := by
  obtain ⟨before, hbefore, hcases⟩ := advanceCatching_eq_ok hadvance
  rcases hcases with ⟨hcatching, hinsertable, journal, -, rfl⟩ | ⟨-, rfl⟩
  swap
  · exact ⟨hexact, .refl⟩
  have hid : before.contractId = progress.contractId := hexact.keyed _ _ hbefore
  rw [← hid] at hbefore
  refine ⟨(hexact.removeContract hbefore).putContract hinsertable, ?_⟩
  set opened := (write.index hashing delta undoBlocks).journalProgress
    delta.anchor.height ([progress].map fun item => ⟨item.contractId, some item⟩) with hopened
  set cursor : BackfillProgress := { progress with
    pinnedTip := delta.anchor
    nextPosition := ⟨delta.anchor.height + 1, 0⟩
    lastApplied := some (delta.anchor, blockDigest) } with hcursor
  have hindex : (write.promoted hashing delta blockDigest
      (delta.anchor.height + 1) progress before journal).index hashing delta undoBlocks =
      (opened.replaceContract hashing delta.anchor.height
        (decide (delta.transitionCount progress.contractId = 0)) before
          { before with syncState := .ready delta.anchor }).putProgress
            cursor := by
    simp only [hopened, hcursor, index, promoted, Index.replaceContract,
      Index.putProgress, Index.journalProgress, modifyUndo_insert_self, hid,
      decide_eq_true_eq, List.map_cons, List.map_nil]
  have hrow : opened.undoBlocks[delta.anchor.height]? = some { write.undo with
      backfillProgressChanges := write.undo.backfillProgressChanges ++
        [⟨progress.contractId, some progress⟩] } := by
    simp [hopened, Index.journalProgress, index, row_modifyUndo]
  have hopen : Index.Write hashing activation delta.anchor.height delta.scope
      (write.index hashing delta undoBlocks) opened := by
    refine .journalCursors ?_ habove
    intro item hitem
    rw [List.mem_singleton] at hitem
    subst hitem
    exact ⟨hcurrent, hat, .inr ⟨before, hid ▸ hbefore, hcatching⟩⟩
  have hadvances : opened.Advances delta.anchor.height before.contractId
      progress (.ready delta.anchor) cursor := by
    refine ⟨hid ▸ hcurrent, hid.symm, hat, rfl, ?_, fun _ => rfl, ?_⟩
    · intro undo hundo
      rw [hrow] at hundo
      cases hundo
      rw [hid]
      exact List.mem_append_right _ (List.mem_singleton_self _)
    · intro hfalse
      cases hfalse
  rw [Writes, hindex]
  refine (Relation.ReflTransGen.single hopen).tail (.advance (Set.mem_univ _)
    hbefore hcatching hinsertable ?_ hadvances (Nat.lt_succ_of_lt habove))
  intro hcount undo hundo
  rw [hrow] at hundo
  cases hundo
  rw [hid]
  exact hjournalled (of_decide_eq_false hcount)

theorem advanceAll_writes {blockDigest : ℕ} (rows : List BackfillProgress)
    (hexact : write.chain.contractTables.Exact hashing) (habove : activation < delta.anchor.height)
    (hcurrent : Reverts.CursorsCurrent rows write)
    (hat : ∀ progress ∈ rows, progress.nextPosition.blockHeight = delta.anchor.height)
    (hjournalled : ∀ c, delta.transitionCount c ≠ 0 → c ∈ write.journalled)
    (hadvance : rows.foldlM (BlockWrite.advanceCatching hashing delta blockDigest
        (delta.anchor.height + 1)) write = .ok next) :
    write.Writes hashing activation delta undoBlocks next := by
  induction rows generalizing write with
  | nil =>
    simp only [List.foldlM_nil, pure_eq_ok] at hadvance
    exact hadvance ▸ .refl
  | cons progress rest ih =>
    simp only [List.foldlM_cons, bind_eq_ok] at hadvance
    obtain ⟨mid, hmid, hrest⟩ := hadvance
    obtain ⟨hexactMid, hwrites⟩ := advanceCatching_writes hexact habove
      (hcurrent.2 progress List.mem_cons_self)
      (hat progress List.mem_cons_self) (hjournalled _) hmid
    exact hwrites.trans (ih hexactMid (Reverts.cursorsCurrent_advance hcurrent hmid)
      (fun other hother => hat other (List.mem_cons_of_mem _ hother))
      (fun c hc => Reverts.journalled_advance (hjournalled c hc) hmid) hrest)

/-- Every cursor stands under its contract and above the checkpoint. -/
def ProgressPlaced (activation : ℕ) (progress : Table ContractId BackfillProgress) : Prop :=
  ∀ (c : ContractId) (item : BackfillProgress), progress[c]? = some item →
    item.contractId = c ∧ activation < item.nextPosition.blockHeight

theorem applyDelta_writes (hshaped : delta.Shaped hashing)
    (habove : activation < delta.anchor.height) (hexact : write.chain.contractTables.Exact hashing)
    (hprogress : ProgressPlaced activation write.chain.backfillProgress)
    (hfresh : ∀ transaction ∈ delta.relevantTransactions,
      write.chain.transactions[transaction.position]? = none)
    (happly : write.applyDelta hashing delta = .ok next) :
    write.Writes hashing activation delta undoBlocks next := by
  obtain ⟨applied, hinted, happlied, hhinted, hkept, hjournalled, hadvance⟩ := applyDelta_ok happly
  have hperm : (delta.relevantTransactions.insertionSort fun a b =>
      a.position.txIndex ≤ b.position.txIndex).Perm delta.relevantTransactions :=
    List.perm_insertionSort _ _
  have hnodup : (delta.relevantTransactions.map ChainTxDelta.position).Nodup :=
    hshaped.ordered.imp fun hlt => hlt.ne
  obtain ⟨hexactApplied, hwritesApplied⟩ := applyTransactions_writes _
    ((hperm.map ChainTxDelta.position).nodup_iff.mpr hnodup)
    (fun transaction hmem => hshaped.transactions transaction (hperm.mem_iff.mp hmem))
    hexact (fun transaction hmem => hfresh transaction (hperm.mem_iff.mp hmem))
    happlied
  obtain ⟨hexactHinted, hwritesHinted⟩ := foldlM_simulates
    (R := Index.Write hashing activation delta.anchor.height delta.scope)
    (index hashing delta undoBlocks) (fun w : BlockWrite => w.chain.contractTables.Exact hashing)
    (fun s hint s' hmem hs hstep => by
      refine ⟨?_, insertRecoveryHint_writes (hshaped.hints hint hmem) hstep⟩
      obtain ⟨-, rfl⟩ := insertRecoveryHint_eq_ok.mp hstep
      exact hs)
    hexactApplied hhinted
  refine (hwritesApplied.trans hwritesHinted).trans ?_
  rcases hadvance with rfl | ⟨nextHeight, rfl, hadvance⟩
  · exact .refl
  · refine advanceAll_writes _ hexactHinted habove ?_ ?_ hjournalled hadvance
    · refine Reverts.cursorsCurrent_read ?_ _
      rw [hkept]
      exact fun c item hitem => (hprogress c item hitem).1
    · intro item hitem
      exact of_decide_eq_true (List.mem_filter.mp hitem).2

end

end BlockWrite

theorem pruneUndo_insert_self (undoBlocks : Table ℕ UndoBlock) (height : ℕ) (undo : UndoBlock) :
    pruneUndo (undoBlocks.insert height undo) height =
      (pruneUndo undoBlocks height).insert height undo := by
  apply Table.ext_rows
  intro a
  rw [pruneUndo, Table.row_retainKeys, Table.row_insert, Table.row_insert,
    pruneUndo, Table.row_retainKeys]
  by_cases ha : height = a
  · subst ha
    simp
  · simp [ha]

def Index.openBlock (hashing : Hashing) (delta : BlockDelta) (index : Index) : Index where
  chain := { index.chain with
    blocks := index.chain.blocks.insert delta.anchor.height (.ofDelta hashing delta)
    tip := delta.anchor }
  undoBlocks := (pruneUndo index.undoBlocks delta.anchor.height).insert
    delta.anchor.height { previousTip := index.chain.tip }

theorem Store.Extends.writes {hashing : Hashing} {store : Store}
    {delta : BlockDelta} {write : BlockWrite}
    (hextends : store.Extends hashing delta write) (habove : activation < delta.anchor.height)
    (hexact : store.chain.contractTables.Exact hashing)
    (hprogress : BlockWrite.ProgressPlaced activation store.chain.backfillProgress)
    (hfresh : ∀ transaction ∈ delta.relevantTransactions,
      store.chain.transactions[transaction.position]? = none) :
    Index.Writes hashing activation delta.anchor.height delta.scope
      (store.index.openBlock hashing delta) (store.commitBlock hashing delta write).index := by
  have hcommit : (store.commitBlock hashing delta write).index =
      write.index hashing delta (pruneUndo store.undoBlocks delta.anchor.height) := by
    simp only [commitBlock, index, BlockWrite.index, pruneUndo_insert_self]
  rw [hcommit]
  exact BlockWrite.applyDelta_writes hextends.shaped habove hexact hprogress hfresh hextends.written

end DeadcatNode
