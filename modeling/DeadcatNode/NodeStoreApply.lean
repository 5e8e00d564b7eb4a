import DeadcatNode.NodeStoreContracts
import Mathlib.Data.List.Sort
import Mathlib.Data.List.Destutter

/-!
# Applying a canonical block

`applyBlock` checks the shape of a delta, extends the tip by it and journals
the inverse of every row it writes.  All writes happen in one database
transaction: a failing application is an error value and leaves the store as
it was.
-/

namespace DeadcatNode

open Checked

variable {hashing : Hashing}

def undoRetentionBlocks : ℕ := 2

def sortDedupContracts (contracts : List ContractId) : List ContractId :=
  (contracts.insertionSort (· ≤ ·)).destutter (· ≠ ·)

def EventJournal.appendEvent (journal : EventJournal) (event : StoredEvent) :
    Except StoreError EventJournal := do
  let sequence ← okOr (checkedAdd 64 journal.sequence 1) .eventSequenceOverflow
  return { journal with
    sequence
    rows := journal.rows.insert ⟨journal.epoch, sequence⟩ event }

theorem EventJournal.appendEvent_epoch {journal next : EventJournal}
    {event : StoredEvent} (happend : journal.appendEvent event = .ok next) :
    next.epoch = journal.epoch := by
  simp only [appendEvent, bind_eq_ok, pure_eq_ok] at happend
  obtain ⟨sequence, -, rfl⟩ := happend
  rfl

theorem EventJournal.appendEvent_of_room {journal : EventJournal}
    (event : StoredEvent) (hroom : journal.sequence + 1 < 2 ^ 64) :
    ∃ next, journal.appendEvent event = .ok next ∧
      next.epoch = journal.epoch ∧ next.sequence = journal.sequence + 1 := by
  have hsequence : checkedAdd 64 journal.sequence 1 =
      some (journal.sequence + 1) := checkedAdd_eq_some.mpr ⟨rfl, hroom⟩
  refine ⟨{ journal with
    sequence := journal.sequence + 1
    rows := journal.rows.insert ⟨journal.epoch, journal.sequence + 1⟩ event },
    ?_, rfl, rfl⟩
  simp only [EventJournal.appendEvent, hsequence, okOr, ok_bind]
  rfl

def EventJournal.highWatermark (journal : EventJournal) : EventCursor :=
  ⟨journal.epoch, journal.sequence⟩

def ChainTables.canonicalAnchor (chain : ChainTables) (height : ℕ) : Option ChainAnchor :=
  if chain.tip.height < height then none
  else if height = chain.tip.height then some chain.tip
  else
    match chain.blocks[height]? with
    | some block => some block.anchor
    | none =>
      match checkedAdd 32 height 1 with
      | none => none
      | some nextHeight =>
        (chain.blocks[nextHeight]?).map fun next => ⟨height, next.prevBlockHash⟩

/-! ## Shape of a delta -/

def validateCreatedContract (hashing : Hashing) (delta : ChainTxDelta)
    (seen : List ContractId) (contract : ContractRecord) : Except StoreError (List ContractId) := do
  require (contract.creationPosition = delta.position ∧
      contract.contractId.txid = delta.txid ∧ contract.contractId ∉ seen)
    (.invalidBlock "created contract metadata is inconsistent or duplicated")
  require (contract.contractId.vout < delta.rawTx.output.length)
    (.invalidBlock "created contract anchor is absent from its creation transaction")
  require (∃ tracked ∈ contract.outpoints, tracked.outpoint = contract.contractId.creationAnchor)
    (.invalidBlock "created contract anchor is not one of its initial live outputs")
  contract.validate hashing
  return contract.contractId :: seen

def validateUpdateLeg (seen : List ContractId) (update : StateUpdate) :
    Except StoreError (List ContractId) := do
  require (update.contractId ∉ seen)
    (.invalidBlock "a transaction has duplicate legs for one contract")
  return update.contractId :: seen

def validateTransactionShape (hashing : Hashing) (delta : BlockDelta)
    (transaction : ChainTxDelta) : Except StoreError Unit := do
  require (transaction.rawTx.output.length < 2 ^ 32) (.invalidBlock "output count exceeds u32")
  require (transaction.position.blockHeight = delta.anchor.height ∧
      transaction.blockHash = delta.anchor.hash ∧
      delta.orderedTxids[transaction.position.txIndex]? = some transaction.txid ∧
      hashing.txid transaction.rawTx = transaction.txid)
    (.invalidBlock "relevant transaction position/hash/txid is inconsistent")
  let seen ← transaction.createdContracts.foldlM (validateCreatedContract hashing transaction) []
  let _ ← transaction.stateUpdates.foldlM validateUpdateLeg seen
  return ()

-- Strict order already excludes repeated positions and repeated locations,
-- which the source checks once more.
def validateBlockShape (hashing : Hashing) (delta : BlockDelta) : Except StoreError Unit := do
  require (delta.orderedTxids ≠ []) (.invalidBlock "complete txid list is empty")
  require delta.orderedTxids.Nodup (.invalidBlock "complete txid list contains duplicates")
  require ((delta.relevantTransactions.map ChainTxDelta.position).IsChain (· < ·))
    (.invalidBlock "relevant transactions are not in strict chain order")
  delta.relevantTransactions.forM (validateTransactionShape hashing delta)
  require ((delta.recoveryHints.map RecoveryHintDelta.location).IsChain (· < ·))
    (.invalidBlock "recovery hints are not in strict chain/output order")
  delta.recoveryHints.forM fun hint =>
    require (hint.location.position.blockHeight = delta.anchor.height ∧
        delta.orderedTxids[hint.location.position.txIndex]? = some hint.creationTxid)
      (.invalidBlock "recovery hint position/txid is inconsistent or duplicated")

/-! ## One transaction -/

/-- Every input which spends a tracked outpoint is declared by the leg of its
owner, and nothing else is declared. -/
def validateTrackedInputs (tables : ContractTables) (delta : ChainTxDelta) :
    Except StoreError Unit := do
  let declared := delta.stateUpdates.flatMap fun update =>
    update.spentOutpoints.map fun outpoint => (outpoint, update.contractId)
  require (declared.map Prod.fst).Nodup
    (.invalidTransition "one tracked outpoint is declared by multiple legs")
  let inputs := (delta.rawTx.input.map TxIn.previousOutput).dedup
  require (∀ leg ∈ declared, leg.1 ∈ inputs)
    (.invalidTransition "declared spent outpoint is not a transaction input")
  inputs.forM fun outpoint =>
    match tables.outpointOwners[outpoint]?, declared.lookup outpoint with
    | some owner, some contractId =>
      require (owner.contractId = contractId) (.unaccountedTrackedInput outpoint owner.contractId)
    | some owner, none =>
      .error (.unaccountedTrackedInput outpoint owner.contractId)
    | none, some _ =>
      .error (.invalidTransition "transition declares an untracked input")
    | none, none => .ok ()

def ensureAllOutpointsSpent (record : ContractRecord) (update : StateUpdate) :
    Except StoreError Unit :=
  require (update.spentOutpoints.Nodup ∧
      (∀ tracked ∈ record.outpoints, tracked.outpoint ∈ update.spentOutpoints) ∧
      ∀ outpoint ∈ update.spentOutpoints, outpoint ∈ record.outpoints.map TrackedOutpoint.outpoint)
    (.invalidTransition "state update must consume every current contract outpoint exactly once")

def validateNewOutpoints (outpoints : List TrackedOutpoint) (txid : Txid)
    (outputCount : ℕ) : Except StoreError Unit :=
  require ((∀ tracked ∈ outpoints, tracked.outpoint.txid = txid ∧
        tracked.outpoint.vout < outputCount) ∧
      (outpoints.map TrackedOutpoint.role).Nodup ∧
      (outpoints.map TrackedOutpoint.outpoint).Nodup)
    (.invalidTransition "new outpoint is out of range, duplicated, or belongs to another tx")

def ContractRecord.updated (record : ContractRecord) (update : StateUpdate) : ContractRecord :=
  { record with
    state := update.newState
    outpoints := update.newOutpoints }

/-- Replace a contract by its successor and enter the transition in its
history.  Canonical application and backfill share this part. -/
def ChainTables.applyTransition (hashing : Hashing) (delta : ChainTxDelta)
    (chain : ChainTables) (before : ContractRecord) (update : StateUpdate) :
    Except StoreError ChainTables := do
  require (before.state = update.oldState) (.stateMismatch update.contractId)
  ensureAllOutpointsSpent before update
  validateNewOutpoints update.newOutpoints delta.txid delta.rawTx.output.length
  (before.updated update).validate hashing
  let contractTables ← (chain.contractTables.removeContract hashing
    before).insertContract hashing (before.updated update)
  require (chain.contractHistory[historyKey update.contractId delta.position]? = none)
    (.duplicateHistory update.contractId delta.position)
  return { chain with
    contractTables
    contractHistory := chain.contractHistory.insert
      (historyKey update.contractId delta.position) {
        position := delta.position
        txid := delta.txid
        oldState := update.oldState
        newState := update.newState
        transition := update.transition } }

/-- An open write transaction: the tables, the journal of events and the undo
row being built. -/
structure BlockWrite where
  chain : ChainTables
  journal : EventJournal
  undo : UndoBlock

def BlockWrite.createContract (hashing : Hashing) (delta : ChainTxDelta)
    (write : BlockWrite) (contract : ContractRecord) : Except StoreError BlockWrite := do
  require (write.chain.contractTables.contracts[contract.contractId]? = none)
    (.contractAlreadyExists contract.contractId)
  validateNewOutpoints contract.outpoints delta.txid delta.rawTx.output.length
  let contractTables ← write.chain.contractTables.insertContract hashing contract
  return { write with
    chain := { write.chain with contractTables }
    undo := { write.undo with
      contractChanges := write.undo.contractChanges ++ [⟨contract.contractId, none⟩] } }

def BlockWrite.applyUpdate (hashing : Hashing) (delta : ChainTxDelta)
    (write : BlockWrite) (update : StateUpdate) : Except StoreError BlockWrite := do
  let before ← okOr write.chain.contractTables.contracts[update.contractId]?
    (.contractNotFound update.contractId)
  let chain ← write.chain.applyTransition hashing delta before update
  return { write with
    chain
    undo := { write.undo with
      contractChanges := write.undo.contractChanges ++ [⟨update.contractId, some before⟩]
      historyKeys := write.undo.historyKeys ++ [(update.contractId, delta.position)] } }

def ChainTxDelta.allOutpoints (delta : ChainTxDelta) : List OutPoint :=
  (List.range delta.rawTx.output.length).map fun vout => ⟨delta.txid, vout⟩

def BlockWrite.storeTransaction (delta : ChainTxDelta)
    (affected : List ContractId) (write : BlockWrite) : BlockWrite :=
  { write with
    chain := { write.chain with
      transactions := write.chain.transactions.insert delta.position {
        position := delta.position
        blockHash := delta.blockHash
        txid := delta.txid
        rawTx := delta.rawTx
        affectedContractIds := affected }
      outputs := write.chain.outputs.insertAll
        (delta.allOutpoints.map fun outpoint => (outpoint, ⟨delta.position, outpoint⟩)) }
    undo := { write.undo with
      transactionPositions := write.undo.transactionPositions ++ [delta.position]
      outputOutpoints := write.undo.outputOutpoints ++ delta.allOutpoints } }

def BlockWrite.applyChainTransaction (hashing : Hashing)
    (anchor : ChainAnchor) (write : BlockWrite) (delta : ChainTxDelta) :
    Except StoreError BlockWrite := do
  validateTrackedInputs write.chain.contractTables delta
  require (delta.rawTx.output.length < 2 ^ 32) (.invalidBlock "output count exceeds u32")
  let write ← delta.createdContracts.foldlM (createContract hashing delta) write
  let write ← delta.stateUpdates.foldlM (applyUpdate hashing delta) write
  let affected := sortDedupContracts (delta.createdContracts.map ContractRecord.contractId ++
      delta.stateUpdates.map StateUpdate.contractId)
  let write := write.storeTransaction delta affected
  let journal ← write.journal.appendEvent
    (.transactionApplied anchor delta.txid delta.position affected)
  return { write with journal }

def BlockWrite.insertRecoveryHint (write : BlockWrite)
    (hint : RecoveryHintDelta) : Except StoreError BlockWrite := do
  require (write.chain.recoveryHints[hint.location]? = none) (.duplicateRecoveryHint hint.location)
  return { write with
    chain := { write.chain with
      recoveryHints := write.chain.recoveryHints.insert hint.location hint }
    undo := { write.undo with
      recoveryLocations := write.undo.recoveryLocations ++ [hint.location] } }

/-! ## Contracts waiting for the next block -/

def BlockDelta.transitionCount (delta : BlockDelta) (contractId : ContractId) : ℕ :=
  ((delta.relevantTransactions.flatMap ChainTxDelta.stateUpdates).filter
    fun update => update.contractId = contractId).length

/-- A catching-up contract whose cursor stands at the applied block is
replayed by the canonical pass itself and becomes ready. -/
def BlockWrite.advanceCatching (hashing : Hashing) (delta : BlockDelta)
    (blockDigest nextHeight : ℕ) (write : BlockWrite)
    (progress : BackfillProgress) : Except StoreError BlockWrite := do
  let before ← okOr write.chain.contractTables.contracts[progress.contractId]?
    (.contractNotFound progress.contractId)
  if before.syncState.isCatchingUp then
    let transitionCount := delta.transitionCount progress.contractId
    let contractChanges :=
      if transitionCount = 0 then
        write.undo.contractChanges ++ [⟨progress.contractId, some before⟩]
      else write.undo.contractChanges
    let contractTables ← (write.chain.contractTables.removeContract hashing
      before).insertContract hashing { before with syncState := .ready delta.anchor }
    require (transitionCount < 2 ^ 32) .transitionCountOverflow
    let journal ← write.journal.appendEvent
      (.backfillApplied progress.contractId delta.anchor transitionCount)
    let journal ← journal.appendEvent (.contractReady progress.contractId delta.anchor)
    return {
      chain := { write.chain with
        contractTables
        backfillProgress :=
          write.chain.backfillProgress.insert progress.contractId { progress with
              pinnedTip := delta.anchor
              nextPosition := ⟨nextHeight, 0⟩
              lastApplied := some (delta.anchor, blockDigest) } }
      journal
      undo := { write.undo with
        contractChanges
        backfillProgressChanges := write.undo.backfillProgressChanges ++
          [⟨progress.contractId, some progress⟩] } }
  else return write

def BlockWrite.advanceCatchingThroughCanonicalBlock (hashing : Hashing)
    (delta : BlockDelta) (blockDigest : ℕ) (write : BlockWrite) : Except StoreError BlockWrite :=
  let progressRows :=
    (write.chain.backfillProgress.toList.map Prod.snd).filter fun progress =>
      progress.nextPosition.blockHeight = delta.anchor.height
  if progressRows = [] then .ok write
  else do
    let nextHeight ← okOr (checkedAdd 32 delta.anchor.height 1) .heightOverflow
    progressRows.foldlM (advanceCatching hashing delta blockDigest nextHeight) write

/-! ## The block -/

def pruneUndo (undoBlocks : Table ℕ UndoBlock) (newHeight : ℕ) : Table ℕ UndoBlock :=
  undoBlocks.retainKeys fun height => newHeight - (undoRetentionBlocks - 1) ≤ height

structure ApplyBlockResult where
  applied : Bool
  newTip : ChainAnchor
  eventHighWatermark : EventCursor
deriving DecidableEq

def BlockWrite.applyDelta (hashing : Hashing) (delta : BlockDelta)
    (write : BlockWrite) : Except StoreError BlockWrite := do
  let write ← (delta.relevantTransactions.insertionSort fun a b =>
      a.position.txIndex ≤ b.position.txIndex).foldlM
    (applyChainTransaction hashing delta.anchor) write
  let write ← delta.recoveryHints.foldlM insertRecoveryHint write
  write.advanceCatchingThroughCanonicalBlock hashing delta (hashing.digest delta)

def StoredBlock.ofDelta (hashing : Hashing) (delta : BlockDelta) : StoredBlock where
  anchor := delta.anchor
  prevBlockHash := delta.prevBlockHash
  orderedTxids := delta.orderedTxids
  deltaDigest := hashing.digest delta

def Store.commitBlock (hashing : Hashing) (store : Store) (delta : BlockDelta)
    (write : BlockWrite) : Store :=
  { store with
    chain := { write.chain with
      blocks := write.chain.blocks.insert delta.anchor.height (.ofDelta hashing delta)
      tip := delta.anchor }
    undoBlocks := pruneUndo (store.undoBlocks.insert delta.anchor.height write.undo)
      delta.anchor.height
    journal := write.journal }

/-- Apply a delta on top of the tip.  An exact retry of a stored block is
accepted and changes nothing. -/
def Store.applyBlock (hashing : Hashing) (store : Store) (delta : BlockDelta) :
    Except StoreError (ApplyBlockResult × Store) := do
  validateBlockShape hashing delta
  require (store.syncStatus ≠ .rescanRequired) .rebuildRequired
  match store.chain.blocks[delta.anchor.height]? with
  | some existing =>
    require (existing.deltaDigest = hashing.digest delta ∧ existing.anchor = delta.anchor ∧
        existing.prevBlockHash = delta.prevBlockHash) (.forkConflict delta.anchor.height)
    return (⟨false, delta.anchor, store.journal.highWatermark⟩, store)
  | none =>
    let previousTip := store.chain.tip
    let nextHeight ← okOr (checkedAdd 32 previousTip.height 1) .heightOverflow
    require (delta.anchor.height = nextHeight ∧ delta.prevBlockHash = previousTip.hash)
      (.nonContiguousBlock previousTip delta.anchor delta.prevBlockHash)
    let write ← BlockWrite.applyDelta hashing delta ⟨store.chain, store.journal, { previousTip }⟩
    return (⟨true, delta.anchor, write.journal.highWatermark⟩,
      store.commitBlock hashing delta write)

/-! ## What successful writes did -/

def ChainTxDelta.toRow (delta : ChainTxDelta) (affected : List ContractId) : StoredTransaction where
  position := delta.position
  blockHash := delta.blockHash
  txid := delta.txid
  rawTx := delta.rawTx
  affectedContractIds := affected

/-- A created contract which belongs to its transaction. -/
structure ContractRecord.CreatedBy (hashing : Hashing) (delta : ChainTxDelta)
    (contract : ContractRecord) : Prop where
  position : contract.creationPosition = delta.position
  txid : contract.contractId.txid = delta.txid
  anchor : contract.contractId.vout < delta.rawTx.output.length
  tracked : ∃ tracked ∈ contract.outpoints, tracked.outpoint = contract.contractId.creationAnchor
  valid : contract.Valid hashing

variable {delta : ChainTxDelta}

theorem validateCreatedContracts_ok {contracts : List ContractRecord} {seen seen' : List ContractId}
    (hvalidate : contracts.foldlM (validateCreatedContract hashing delta) seen = .ok seen') :
    ∀ contract ∈ contracts, contract.CreatedBy hashing delta := by
  induction contracts generalizing seen with
  | nil => simp
  | cons contract rest ih =>
    simp only [List.foldlM_cons, validateCreatedContract, bind_eq_ok,
      require_eq_ok, ContractTables.validate_eq_ok] at hvalidate
    obtain ⟨_, ⟨-, ⟨hposition, htxid, -⟩, -, hanchor, -, htracked, -, hvalid,
      -⟩, hrest⟩ := hvalidate
    intro other hother
    rcases List.mem_cons.mp hother with rfl | hother
    · exact ⟨hposition, htxid, hanchor, htracked, hvalid⟩
    · exact ih hrest other hother

structure ChainTxDelta.Shaped (hashing : Hashing) (delta : BlockDelta)
    (transaction : ChainTxDelta) : Prop where
  relevant : transaction ∈ delta.relevantTransactions
  height : transaction.position.blockHeight = delta.anchor.height
  hash : transaction.blockHash = delta.anchor.hash
  listed : delta.orderedTxids[transaction.position.txIndex]? = some transaction.txid
  txid : hashing.txid transaction.rawTx = transaction.txid
  created : ∀ contract ∈ transaction.createdContracts, contract.CreatedBy hashing transaction

def BlockDelta.created (delta : BlockDelta) : Set ContractRecord :=
  {contract | ∃ transaction ∈ delta.relevantTransactions, contract ∈ transaction.createdContracts}

/-- What a delta with a valid shape satisfies. -/
structure BlockDelta.Shaped (hashing : Hashing) (delta : BlockDelta) : Prop where
  nodup : delta.orderedTxids.Nodup
  ordered : (delta.relevantTransactions.map ChainTxDelta.position).Pairwise (· < ·)
  transactions : ∀ transaction ∈ delta.relevantTransactions, transaction.Shaped hashing delta
  hints : ∀ hint ∈ delta.recoveryHints, hint.location.position.blockHeight = delta.anchor.height

theorem validateBlockShape_ok {delta : BlockDelta}
    {u : Unit} (hvalidate : validateBlockShape hashing delta = .ok u) : delta.Shaped hashing := by
  simp only [validateBlockShape, validateTransactionShape, bind_eq_ok,
    require_eq_ok, forM_eq_ok, pure_eq_ok] at hvalidate
  obtain ⟨-, -, -, hnodup, -, hordered, -, htransactions, -, -, hhints⟩ := hvalidate
  refine ⟨hnodup, List.isChain_iff_pairwise.mp hordered, ?_, ?_⟩
  · intro transaction htransaction
    obtain ⟨-, -, -, ⟨hheight, hhash, hlisted, htxid⟩, seen, hseen, -⟩ :=
      htransactions transaction htransaction
    exact ⟨htransaction, hheight, hhash, hlisted, htxid, validateCreatedContracts_ok hseen⟩
  · intro hint hhint
    exact (hhints hint hhint).1

theorem validateNewOutpoints_eq_ok {outpoints : List TrackedOutpoint}
    {txid : Txid} {outputCount : ℕ} {u : Unit} :
    validateNewOutpoints outpoints txid outputCount = .ok u ↔
      (∀ tracked ∈ outpoints, tracked.outpoint.txid = txid ∧ tracked.outpoint.vout < outputCount) ∧
      (outpoints.map TrackedOutpoint.role).Nodup ∧
      (outpoints.map TrackedOutpoint.outpoint).Nodup := by
  rw [validateNewOutpoints, require_eq_ok]

structure ChainTables.TransitionAllowed (hashing : Hashing)
    (delta : ChainTxDelta) (chain : ChainTables) (before : ContractRecord)
    (update : StateUpdate) : Prop where
  state : before.state = update.oldState
  spentNodup : update.spentOutpoints.Nodup
  spentAll : ∀ tracked ∈ before.outpoints, tracked.outpoint ∈ update.spentOutpoints
  spentOnly : ∀ outpoint ∈ update.spentOutpoints,
    outpoint ∈ before.outpoints.map TrackedOutpoint.outpoint
  created : ∀ tracked ∈ update.newOutpoints,
    tracked.outpoint.txid = delta.txid ∧ tracked.outpoint.vout < delta.rawTx.output.length
  insertable : (chain.contractTables.removeContract hashing before).Insertable
    hashing (before.updated update)
  newEntry : chain.contractHistory[historyKey update.contractId delta.position]? = none

def StateUpdate.historyEntry (update : StateUpdate) (delta : ChainTxDelta) :
    StoredHistoryEntry where
  position := delta.position
  txid := delta.txid
  oldState := update.oldState
  newState := update.newState
  transition := update.transition

def ChainTables.afterTransition (hashing : Hashing) (delta : ChainTxDelta)
    (chain : ChainTables) (before : ContractRecord) (update : StateUpdate) :
    ChainTables :=
  { chain with
    contractTables := (chain.contractTables.removeContract hashing
      before).putContract hashing (before.updated update)
    contractHistory := chain.contractHistory.insert (historyKey update.contractId delta.position)
      (update.historyEntry delta) }

theorem ChainTables.applyTransition_eq_ok {chain next : ChainTables}
    {before : ContractRecord} {update : StateUpdate} :
    chain.applyTransition hashing delta before update = .ok next ↔
      chain.TransitionAllowed hashing delta before update ∧
        next = chain.afterTransition hashing delta before update := by
  simp only [applyTransition, ensureAllOutpointsSpent, bind_eq_ok,
    require_eq_ok, validateNewOutpoints_eq_ok, ContractTables.validate_eq_ok,
    ContractTables.insertContract_eq_ok, pure_eq_ok]
  constructor
  · rintro ⟨-, hstate, -, ⟨hnodup, hall, honly⟩, -, ⟨hcreated, -⟩, -, -, _,
      ⟨hinsertable, rfl⟩, -, hentry, rfl⟩
    exact ⟨⟨hstate, hnodup, hall, honly, hcreated, hinsertable, hentry⟩, rfl⟩
  · rintro ⟨hallowed, rfl⟩
    have hvalid := hallowed.insertable.valid
    exact ⟨(), hallowed.state, (), ⟨hallowed.spentNodup, hallowed.spentAll, hallowed.spentOnly⟩, (),
      ⟨hallowed.created, hvalid.roles, hvalid.outpoints⟩, (), hvalid, _,
      ⟨hallowed.insertable, rfl⟩, (), hallowed.newEntry, rfl⟩

variable {write : BlockWrite}

namespace BlockWrite

variable {next : BlockWrite}

theorem createContract_eq_ok {contract : ContractRecord} :
    write.createContract hashing delta contract = .ok next ↔
      (∀ tracked ∈ contract.outpoints, tracked.outpoint.txid = delta.txid ∧
        tracked.outpoint.vout < delta.rawTx.output.length) ∧
      write.chain.contractTables.Insertable hashing contract ∧
      next = { write with
        chain := { write.chain with
          contractTables := write.chain.contractTables.putContract hashing contract }
        undo := { write.undo with
          contractChanges := write.undo.contractChanges ++ [⟨contract.contractId, none⟩] } } := by
  simp only [createContract, bind_eq_ok, require_eq_ok,
    validateNewOutpoints_eq_ok, ContractTables.insertContract_eq_ok, pure_eq_ok]
  constructor
  · rintro ⟨-, -, -, ⟨hcreated, -⟩, _, ⟨hinsertable, rfl⟩, rfl⟩
    exact ⟨hcreated, hinsertable, rfl⟩
  · rintro ⟨hcreated, hinsertable, rfl⟩
    exact ⟨(), hinsertable.absent, (), ⟨hcreated, hinsertable.valid.roles,
      hinsertable.valid.outpoints⟩, _, ⟨hinsertable, rfl⟩, rfl⟩

theorem applyUpdate_eq_ok {update : StateUpdate} :
    write.applyUpdate hashing delta update = .ok next ↔ ∃ before,
        write.chain.contractTables.contracts[update.contractId]? =
          some before ∧ write.chain.TransitionAllowed hashing delta before update ∧
        next = { write with
          chain := write.chain.afterTransition hashing delta before update
          undo := { write.undo with
            contractChanges := write.undo.contractChanges ++ [⟨update.contractId, some before⟩]
            historyKeys := write.undo.historyKeys ++ [(update.contractId, delta.position)] } } := by
  simp only [applyUpdate, bind_eq_ok, okOr_eq_ok, ChainTables.applyTransition_eq_ok, pure_eq_ok]
  constructor
  · rintro ⟨before, hbefore, _, ⟨hallowed, rfl⟩, rfl⟩
    exact ⟨before, hbefore, hallowed, rfl⟩
  · rintro ⟨before, hbefore, hallowed, rfl⟩
    exact ⟨before, hbefore, _, ⟨hallowed, rfl⟩, rfl⟩

theorem insertRecoveryHint_eq_ok {hint : RecoveryHintDelta} :
    write.insertRecoveryHint hint = .ok next ↔ write.chain.recoveryHints[hint.location]? = none ∧
      next = { write with
        chain := { write.chain with
          recoveryHints := write.chain.recoveryHints.insert hint.location hint }
        undo := { write.undo with
          recoveryLocations := write.undo.recoveryLocations ++ [hint.location] } } := by
  simp only [insertRecoveryHint, bind_eq_ok, require_eq_ok, pure_eq_ok]
  constructor
  · rintro ⟨-, habsent, rfl⟩
    exact ⟨habsent, rfl⟩
  · rintro ⟨habsent, rfl⟩
    exact ⟨(), habsent, rfl⟩

def promoted (hashing : Hashing) (delta : BlockDelta)
    (blockDigest nextHeight : ℕ) (write : BlockWrite)
    (progress : BackfillProgress) (before : ContractRecord)
    (journal : EventJournal) : BlockWrite where
  chain := { write.chain with
    contractTables := (write.chain.contractTables.removeContract hashing before).putContract hashing
        { before with syncState := .ready delta.anchor }
    backfillProgress :=
      write.chain.backfillProgress.insert progress.contractId { progress with
          pinnedTip := delta.anchor
          nextPosition := ⟨nextHeight, 0⟩
          lastApplied := some (delta.anchor, blockDigest) } }
  journal
  undo := { write.undo with
    contractChanges :=
      if delta.transitionCount progress.contractId = 0 then
        write.undo.contractChanges ++ [⟨progress.contractId, some before⟩]
      else write.undo.contractChanges
    backfillProgressChanges := write.undo.backfillProgressChanges ++
      [⟨progress.contractId, some progress⟩] }

theorem advanceCatching_eq_ok {delta : BlockDelta}
    {blockDigest nextHeight : ℕ} {progress : BackfillProgress}
    (hadvance : write.advanceCatching hashing delta blockDigest nextHeight progress = .ok next) :
    ∃ before, write.chain.contractTables.contracts[progress.contractId]? = some before ∧
      (before.syncState.isCatchingUp = true ∧
        (write.chain.contractTables.removeContract hashing before).Insertable
          hashing { before with syncState := .ready delta.anchor } ∧
        (∃ journal, journal.epoch = write.journal.epoch ∧
          next = write.promoted hashing delta blockDigest nextHeight progress before journal) ∨
      before.syncState.isCatchingUp = false ∧ next = write) := by
  simp only [advanceCatching, bind_eq_ok, okOr_eq_ok] at hadvance
  obtain ⟨before, hbefore, hadvance⟩ := hadvance
  refine ⟨before, hbefore, ?_⟩
  split at hadvance
  · next hcatching =>
    simp only [bind_eq_ok, ContractTables.insertContract_eq_ok, require_eq_ok,
      pure_eq_ok] at hadvance
    obtain ⟨_, ⟨hinsertable, rfl⟩, -, -, mid, hmid, journal, hjournal, rfl⟩ := hadvance
    exact .inl ⟨hcatching, hinsertable, journal,
      (EventJournal.appendEvent_epoch hjournal).trans (EventJournal.appendEvent_epoch hmid), rfl⟩
  · next hready =>
    simp only [pure_eq_ok] at hadvance
    exact .inr ⟨by simpa using hready, hadvance.symm⟩

end BlockWrite

def Store.startBlock (store : Store) : BlockWrite :=
  ⟨store.chain, store.journal, { previousTip := store.chain.tip }⟩

structure Store.Extends (hashing : Hashing) (store : Store)
    (delta : BlockDelta) (write : BlockWrite) : Prop where
  shaped : delta.Shaped hashing
  status : store.syncStatus ≠ .rescanRequired
  absent : store.chain.blocks[delta.anchor.height]? = none
  height : delta.anchor.height = store.chain.tip.height + 1
  word : delta.anchor.height < 2 ^ 32
  previous : delta.prevBlockHash = store.chain.tip.hash
  written : store.startBlock.applyDelta hashing delta = .ok write

theorem Store.applyBlock_ok {store next : Store} {delta : BlockDelta} {result : ApplyBlockResult}
    (happly : store.applyBlock hashing delta = .ok (result, next)) :
    result.applied = false ∧ next = store ∨
      result.applied = true ∧ ∃ write, store.Extends hashing delta write ∧
        next = store.commitBlock hashing delta write := by
  simp only [applyBlock, bind_eq_ok, require_eq_ok] at happly
  obtain ⟨_, hshape, -, hstatus, happly⟩ := happly
  have hshaped := validateBlockShape_ok hshape
  split at happly
  · simp only [bind_eq_ok, require_eq_ok, pure_eq_ok, Prod.mk.injEq] at happly
    obtain ⟨-, -, rfl, rfl⟩ := happly
    exact .inl ⟨rfl, rfl⟩
  · next habsent =>
    simp only [bind_eq_ok, require_eq_ok, okOr_eq_ok, checkedAdd_eq_some,
      pure_eq_ok, Prod.mk.injEq] at happly
    obtain ⟨height, ⟨rfl, hword⟩, -, ⟨hheight, hprevious⟩, write, hwrite, rfl, rfl⟩ := happly
    exact .inr ⟨rfl, write, ⟨hshaped, hstatus, habsent, hheight,
      hheight ▸ hword, hprevious, hwrite⟩, rfl⟩

theorem Store.applyBlock_of_written {store : Store}
    {delta : BlockDelta} (hshape : validateBlockShape hashing delta = .ok ())
    (hstatus : store.syncStatus ≠ .rescanRequired)
    (habsent : store.chain.blocks[delta.anchor.height]? = none)
    (hheight : checkedAdd 32 store.chain.tip.height 1 = some delta.anchor.height)
    (hprevious : delta.prevBlockHash = store.chain.tip.hash)
    (hwritten : store.startBlock.applyDelta hashing delta = .ok write) :
    store.applyBlock hashing delta = .ok (⟨true, delta.anchor, write.journal.highWatermark⟩,
        store.commitBlock hashing delta write) := by
  simp only [applyBlock, hshape, ok_bind, require, hstatus, ne_eq,
    not_false_eq_true, if_true, habsent, hheight, okOr, hprevious, and_self]
  rw [show (⟨store.chain, store.journal, { previousTip := store.chain.tip }⟩ :
    BlockWrite) = store.startBlock from rfl, hwritten]
  rfl

end DeadcatNode
