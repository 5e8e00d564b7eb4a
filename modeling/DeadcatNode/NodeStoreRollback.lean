import DeadcatNode.NodeStoreApply

/-!
# Rollback and rebuild

`rollbackTo` replays undo rows from the tip down to an ancestor.  When the
ancestor lies below the retained rows the store is marked for a rebuild
instead, and `resetForRebuild` later discards everything derived from the
chain.
-/

namespace DeadcatNode

open Checked

/-! ## Replaying one undo row -/

def dropCurrent (hashing : Hashing) (acc : ContractTables × List ContractId)
    (contractId : ContractId) : ContractTables × List ContractId :=
  match acc.1.contracts[contractId]? with
  | some current =>
    (acc.1.removeContract hashing current, acc.2 ++ [contractId])
  | none => acc

/-- Take one journalled change of a contract back, whatever its record has
become since. -/
def undoContractChange (hashing : Hashing)
    (acc : ContractTables × List ContractId) (change : ContractUndo) :
    Except StoreError (ContractTables × List ContractId) :=
  let acc := dropCurrent hashing acc change.contractId
  match change.before with
  | some before => do
      let tables ← acc.1.insertContract hashing before
      return (tables, acc.2)
  | none => return acc

def undoProgressChange (progress : Table ContractId BackfillProgress)
    (change : BackfillProgressUndo) : Table ContractId BackfillProgress :=
  match change.before with
  | some before =>
    (progress.erase change.contractId).insert change.contractId before
  | none => progress.erase change.contractId

/-- The tables and undo rows in the middle of a rollback. -/
structure RollbackWrite where
  chain : ChainTables
  undoBlocks : Table ℕ UndoBlock
  orphanedPositions : List ChainPosition := []
  affectedContractIds : List ContractId := []

/-- Take the rows other than contract rows back. -/
def ChainTables.undoRows (chain : ChainTables) (undo : UndoBlock) : ChainTables :=
  { chain with
    transactions := chain.transactions.eraseAll undo.transactionPositions
    outputs := chain.outputs.eraseAll undo.outputOutpoints
    contractHistory := chain.contractHistory.eraseAll
      (undo.historyKeys.map fun key => historyKey key.1 key.2)
    recoveryHints := chain.recoveryHints.eraseAll undo.recoveryLocations
    backfillProgress :=
      undo.backfillProgressChanges.reverse.foldl undoProgressChange chain.backfillProgress }

def RollbackWrite.undoBlock (hashing : Hashing) (write : RollbackWrite)
    (height : ℕ) : Except StoreError RollbackWrite := do
  let undo ← okOr write.undoBlocks[height]? (.missingUndo height)
  let (contractTables, affectedContractIds) ←
    undo.contractChanges.reverse.foldlM (undoContractChange hashing)
      (write.chain.contractTables, write.affectedContractIds)
  let chain := write.chain.undoRows undo
  return {
    chain := { chain with
      contractTables
      blocks := chain.blocks.erase height
      tip := undo.previousTip }
    undoBlocks := write.undoBlocks.erase height
    orphanedPositions := write.orphanedPositions ++ undo.transactionPositions
    affectedContractIds }

/-! ## Rollback -/

inductive RollbackResult where
  | noop (tip : ChainAnchor)
  | rolledBack (oldTip newTip : ChainAnchor) (orphanedPositions : List ChainPosition)
      (eventHighWatermark : EventCursor)
  | rebuildRequired (oldTip requestedAncestor : ChainAnchor) (newEventEpoch : ℕ)
deriving DecidableEq

/-- Invalidate every derived table and start a fresh event epoch, once. -/
def Store.markRebuildRequired (store : Store) (epoch : ℕ) : Except StoreError Store :=
  if store.syncStatus = .rescanRequired then .ok store
  else do
    let journal ← EventJournal.appendEvent { store.journal with epoch, sequence := 0 }
      (.syncStatusChanged .rescanRequired)
    return { store with syncStatus := .rescanRequired, journal }

def undoRangeAvailable (undoBlocks : Table ℕ UndoBlock) (tipHeight ancestorHeight : ℕ) : Bool :=
  (List.range (tipHeight - ancestorHeight)).all fun i =>
    (undoBlocks[ancestorHeight + 1 + i]?).isSome

def rollbackHeights (tipHeight ancestorHeight : ℕ) : List ℕ :=
  (List.range (tipHeight - ancestorHeight)).map (tipHeight - ·)

/-- Roll back to an indexed ancestor.  `epoch` is the random epoch drawn when
a rebuild turns out to be required. -/
def Store.rollbackTo (hashing : Hashing) (store : Store) (ancestor : ChainAnchor) (epoch : ℕ) :
    Except StoreError (RollbackResult × Store) := do
  require (store.syncStatus ≠ .rescanRequired) .rebuildRequired
  let oldTip := store.chain.tip
  if ancestor = oldTip then return (.noop oldTip, store)
  require (ancestor.height < oldTip.height) (.invalidRollbackTarget oldTip ancestor)
  if undoRetentionBlocks < oldTip.height - ancestor.height ∨
      undoRangeAvailable store.undoBlocks oldTip.height ancestor.height = false
  then do
    let marked ← store.markRebuildRequired epoch
    return (.rebuildRequired oldTip ancestor marked.journal.epoch, marked)
  let write ← (rollbackHeights oldTip.height ancestor.height).foldlM
    (RollbackWrite.undoBlock hashing) ⟨store.chain, store.undoBlocks, [], []⟩
  require (write.chain.tip = ancestor) (.ancestorMismatch ancestor write.chain.tip)
  let orphanedPositions := write.orphanedPositions.insertionSort (· ≤ ·)
  let journal ← store.journal.appendEvent (.chainRolledBack oldTip ancestor orphanedPositions
      (sortDedupContracts write.affectedContractIds))
  return (.rolledBack oldTip ancestor orphanedPositions journal.highWatermark, { store with
      chain := write.chain
      undoBlocks := write.undoBlocks
      syncStatus := .syncing
      journal })

/-! ## Status and rebuild -/

def Store.setSyncStatus (store : Store) (status : SyncStatus) (epoch : ℕ) :
    Except StoreError (EventCursor × Store) :=
  if status = .rescanRequired then do
    let marked ← store.markRebuildRequired epoch
    return (marked.journal.highWatermark, marked)
  else do
    require (store.syncStatus ≠ .rescanRequired) .rebuildRequired
    if store.syncStatus = status then
      return (store.journal.highWatermark, store)
    else do
      let journal ← store.journal.appendEvent (.syncStatusChanged status)
      return (journal.highWatermark, { store with syncStatus := status, journal })

def Store.invalidateForRebuild (store : Store) (epoch : ℕ) : Except StoreError (ℕ × Store) := do
  let marked ← store.markRebuildRequired epoch
  return (marked.journal.epoch, marked)

def ChainTables.atAnchor (anchor : ChainAnchor) : ChainTables where
  tip := anchor
  blocks := ∅
  transactions := ∅
  outputs := ∅
  contractTables := .empty
  recoveryHints := ∅
  contractHistory := ∅
  backfillProgress := ∅

def Store.resetForRebuild (store : Store) : Except StoreError (EventCursor × Store) := do
  require (store.syncStatus = .rescanRequired) .rebuildNotRequired
  let journal ← store.journal.appendEvent (.syncStatusChanged .syncing)
  return (journal.highWatermark, { store with
      chain := .atAnchor store.activationAnchor
      undoBlocks := ∅
      syncStatus := .syncing
      journal })

/-- A store freshly bound to a chain at its activation checkpoint. -/
def Store.initial (activationAnchor : ChainAnchor) (epoch : ℕ) : Store where
  chain := .atAnchor activationAnchor
  undoBlocks := ∅
  retainedDeclarations := ∅
  journal := ⟨epoch, 0, ∅⟩
  activationAnchor
  syncStatus := .starting

end DeadcatNode
