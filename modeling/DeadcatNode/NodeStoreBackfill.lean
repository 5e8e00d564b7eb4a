import DeadcatNode.NodeStoreRegistration

/-!
# Backfilling registered contracts

`applyBackfillBlock` replays one already indexed block for contracts which are
catching up.  Rows of the block may exist from canonical indexing; state,
outpoints and cursors of the targets move together in one commit, and the undo
row of the block, if it is still retained, journals the change.
-/

namespace DeadcatNode

open Checked

variable {chain : ChainTables} {progress : List BackfillProgress} {targets : List ContractId}

def verifyBackfillBlock (chain : ChainTables) (delta : BlockDelta) : Except StoreError Unit := do
  require (chain.canonicalAnchor delta.anchor.height = some delta.anchor)
    (.backfillBranchChanged delta.anchor)
  match chain.blocks[delta.anchor.height]? with
  | some stored =>
    require (stored.anchor = delta.anchor ∧ stored.prevBlockHash = delta.prevBlockHash ∧
        stored.orderedTxids = delta.orderedTxids) (.backfillBranchChanged delta.anchor)
  | none => .ok ()

def validateBackfillUpdate (progress : List BackfillProgress)
    (transaction : ChainTxDelta) (update : StateUpdate) : Except StoreError Unit :=
  match progress.find? fun item => item.contractId = update.contractId with
  | none =>
    .error (.invalidBackfill "backfill transaction updates a contract outside the atomic batch")
  | some item =>
    require (item.nextPosition ≤ transaction.position)
      (.invalidBackfill "backfill transition precedes the contract scan cursor")

def validateBackfillTargets (delta : BlockDelta)
    (progress : List BackfillProgress) : Except StoreError Unit := do
  require (delta.recoveryHints = [])
    (.invalidBackfill ("canonical recovery hints cannot be inserted by " ++
      "historical contract backfill"))
  delta.relevantTransactions.forM fun transaction => do
    require (transaction.createdContracts = [])
      (.invalidBackfill "late registration creation records are persisted before replay")
    require (transaction.stateUpdates ≠ [])
      (.invalidBackfill "backfill transaction has no target state update")
    transaction.stateUpdates.forM (validateBackfillUpdate progress transaction)

/-- An open backfill transaction.  `undo` is the journal row of the block when
it is retained, and `changedContracts` lists a contract once for each of its
transitions. -/
structure BackfillWrite where
  chain : ChainTables
  journal : EventJournal
  undo : Option UndoBlock
  changedContracts : List ContractId := []
  readyContracts : List ContractId := []

namespace BackfillWrite

def applyUpdate (hashing : Hashing) (targets : List ContractId)
    (delta : ChainTxDelta) (write : BackfillWrite) (update : StateUpdate) :
    Except StoreError BackfillWrite := do
  require (update.contractId ∈ targets)
    (.invalidBackfill "backfill transaction contains a non-target leg")
  let before ← okOr write.chain.contractTables.contracts[update.contractId]?
    (.contractNotFound update.contractId)
  require (before.syncState.isCatchingUp = true)
    (.invalidBackfill "backfill transition targets a ready contract")
  let chain ← write.chain.applyTransition hashing delta before update
  require (write.changedContracts.count update.contractId + 1 < 2 ^ 32) .transitionCountOverflow
  return { write with
    chain
    undo := write.undo.map fun undo => { undo with
      contractChanges := undo.contractChanges ++ [⟨update.contractId, some before⟩]
      historyKeys := undo.historyKeys ++ [(update.contractId, delta.position)] }
    changedContracts := write.changedContracts ++ [update.contractId] }

def storeTransaction (delta : ChainTxDelta) (affected : List ContractId)
    (write : BackfillWrite) : Except StoreError BackfillWrite :=
  match write.chain.transactions[delta.position]? with
  | some stored => do
      require (stored.position = delta.position ∧
          stored.blockHash = delta.blockHash ∧ stored.txid = delta.txid ∧
          stored.rawTx = delta.rawTx) (.backfillTransactionConflict delta.position)
      return { write with
        chain := { write.chain with
          transactions := write.chain.transactions.insert delta.position
            { stored with
              affectedContractIds := sortDedupContracts
                (stored.affectedContractIds ++ affected) } } }
  | none => do
      require (∀ outpoint ∈ delta.allOutpoints, write.chain.outputs[outpoint]? = none)
        (.backfillTransactionConflict delta.position)
      return { write with
        chain := { write.chain with
          transactions := write.chain.transactions.insert delta.position {
            position := delta.position
            blockHash := delta.blockHash
            txid := delta.txid
            rawTx := delta.rawTx
            affectedContractIds := affected }
          outputs := write.chain.outputs.insertAll
            (delta.allOutpoints.map fun outpoint => (outpoint, ⟨delta.position, outpoint⟩)) }
        undo := write.undo.map fun undo => { undo with
          transactionPositions := undo.transactionPositions ++ [delta.position]
          outputOutpoints := undo.outputOutpoints ++ delta.allOutpoints } }

def applyBackfillTransaction (hashing : Hashing) (targets : List ContractId)
    (write : BackfillWrite) (delta : ChainTxDelta) : Except StoreError BackfillWrite := do
  validateTrackedInputs write.chain.contractTables delta
  require (delta.rawTx.output.length < 2 ^ 32) (.invalidBlock "output count exceeds u32")
  let write ← delta.stateUpdates.foldlM (applyUpdate hashing targets delta) write
  write.storeTransaction delta (sortDedupContracts (delta.stateUpdates.map StateUpdate.contractId))

/-- Move one target past the block.  It becomes ready when the block is the
indexed tip; otherwise a pinned tip which has been reached is extended. -/
def advanceTarget (hashing : Hashing) (delta : BlockDelta)
    (nextHeight : ℕ) (write : BackfillWrite) (item : BackfillProgress) :
    Except StoreError BackfillWrite := do
  let before ← okOr write.chain.contractTables.contracts[item.contractId]?
    (.contractNotFound item.contractId)
  require (before.syncState.isCatchingUp = true)
    (.invalidBackfill "backfill target is not catching up")
  let indexedTip := write.chain.tip
  let ready : Bool := delta.anchor = indexedTip
  let contractTables ← (write.chain.contractTables.removeContract hashing
    before).insertContract hashing { before with
      syncState :=
        if ready then .ready delta.anchor else .catchingUp delta.anchor }
  let journal ← write.journal.appendEvent (.backfillApplied item.contractId
    delta.anchor (write.changedContracts.count item.contractId))
  let journal ←
    if ready then
      journal.appendEvent (.contractReady item.contractId delta.anchor)
    else .ok journal
  return { write with
    chain := { write.chain with
      contractTables
      backfillProgress := write.chain.backfillProgress.insert item.contractId
        { item with
          nextPosition := ⟨nextHeight, 0⟩
          lastApplied := some (delta.anchor, hashing.digest delta)
          pinnedTip :=
            if item.pinnedTip = delta.anchor ∧ indexedTip ≠ delta.anchor then
              indexedTip
            else item.pinnedTip } }
    undo := write.undo.map fun undo => { undo with
      contractChanges :=
        if item.contractId ∈ write.changedContracts then undo.contractChanges
        else undo.contractChanges ++ [⟨item.contractId, some before⟩] }
    journal
    readyContracts :=
      if ready then write.readyContracts ++ [item.contractId]
      else write.readyContracts }

end BackfillWrite

structure ApplyBackfillResult where
  applied : Bool
  through : ChainAnchor
  readyContracts : List ContractId
  eventHighWatermark : EventCursor
deriving DecidableEq

def readyTargets (chain : ChainTables) (targets : List ContractId) :
    Except StoreError (List ContractId) :=
  targets.foldlM (fun ready contractId => do
    let contract ← okOr chain.contractTables.contracts[contractId]? (.contractNotFound contractId)
    return if contract.syncState.isCatchingUp then ready
      else ready ++ [contractId]) []

def readProgress (chain : ChainTables) (targets : List ContractId) :
    Except StoreError (List BackfillProgress) :=
  targets.mapM fun contractId =>
    okOr chain.backfillProgress[contractId]? (.missingBackfillProgress contractId)

def UndoBlock.recordProgress (undo : UndoBlock) (progress : List BackfillProgress) : UndoBlock :=
  { undo with
    backfillProgressChanges := undo.backfillProgressChanges ++
      progress.map fun item => ⟨item.contractId, some item⟩ }

def Store.commitBackfill (store : Store) (delta : BlockDelta) (write : BackfillWrite) : Store :=
  { store with
    chain := write.chain
    journal := write.journal
    undoBlocks :=
      match write.undo with
      | some undo => store.undoBlocks.insert delta.anchor.height undo
      | none => store.undoBlocks }

def Store.applyBackfillBlock (hashing : Hashing) (store : Store)
    (contractIds : List ContractId) (delta : BlockDelta) :
    Except StoreError (ApplyBackfillResult × Store) := do
  validateBlockShape hashing delta
  require (contractIds ≠ []) (.invalidBackfill "backfill batch has no contracts")
  let targets := sortDedupContracts contractIds
  require (targets.length = contractIds.length)
    (.invalidBackfill "backfill batch contains duplicate contracts")
  require (store.syncStatus ≠ .rescanRequired) .rebuildRequired
  verifyBackfillBlock store.chain delta
  let progress ← readProgress store.chain targets
  if ∀ item ∈ progress, item.lastApplied = some (delta.anchor, hashing.digest delta) then do
    let ready ← readyTargets store.chain targets
    return (⟨false, delta.anchor, ready, store.journal.highWatermark⟩, store)
  progress.forM fun item =>
    require (item.nextPosition.blockHeight = delta.anchor.height ∧
        delta.anchor.height ≤ item.pinnedTip.height)
      (.backfillPositionMismatch item.contractId item.nextPosition delta.anchor.height)
  validateBackfillTargets delta progress
  let undo := (store.undoBlocks[delta.anchor.height]?).map (UndoBlock.recordProgress · progress)
  let write ← delta.relevantTransactions.foldlM
    (BackfillWrite.applyBackfillTransaction hashing targets)
    { chain := store.chain, journal := store.journal, undo }
  let nextHeight ← okOr (checkedAdd 32 delta.anchor.height 1) .heightOverflow
  let write ← progress.foldlM (BackfillWrite.advanceTarget hashing delta nextHeight) write
  return (⟨true, delta.anchor, write.readyContracts,
    write.journal.highWatermark⟩, store.commitBackfill delta write)

/-! ## What successful backfills did -/

namespace BackfillWrite

variable {hashing : Hashing} {targets : List ContractId}
  {delta : ChainTxDelta} {write next : BackfillWrite}

def afterUpdate (hashing : Hashing) (delta : ChainTxDelta)
    (write : BackfillWrite) (before : ContractRecord) (update : StateUpdate) :
    BackfillWrite :=
  { write with
    chain := write.chain.afterTransition hashing delta before update
    undo := write.undo.map fun undo => { undo with
      contractChanges := undo.contractChanges ++ [⟨update.contractId, some before⟩]
      historyKeys := undo.historyKeys ++ [(update.contractId, delta.position)] }
    changedContracts := write.changedContracts ++ [update.contractId] }

theorem applyUpdate_eq_ok {update : StateUpdate} :
    write.applyUpdate hashing targets delta update = .ok next ↔
      update.contractId ∈ targets ∧ ∃ before,
        write.chain.contractTables.contracts[update.contractId]? = some before ∧
        before.syncState.isCatchingUp = true ∧
        write.chain.TransitionAllowed hashing delta before update ∧
        write.changedContracts.count update.contractId + 1 < 2 ^ 32 ∧
        next = write.afterUpdate hashing delta before update := by
  simp only [applyUpdate, bind_eq_ok, require_eq_ok, okOr_eq_ok,
    ChainTables.applyTransition_eq_ok, pure_eq_ok]
  constructor
  · rintro ⟨-, htarget, before, hbefore, -, hcatching, _, ⟨hallowed, rfl⟩, -, hcount, rfl⟩
    exact ⟨htarget, before, hbefore, hcatching, hallowed, hcount, rfl⟩
  · rintro ⟨htarget, before, hbefore, hcatching, hallowed, hcount, rfl⟩
    exact ⟨(), htarget, before, hbefore, (), hcatching, _, ⟨hallowed, rfl⟩, (), hcount, rfl⟩

def withAffected (stored : StoredTransaction) (affected : List ContractId)
    (write : BackfillWrite) : BackfillWrite :=
  { write with
    chain := { write.chain with
      transactions := write.chain.transactions.insert stored.position
        { stored with affectedContractIds := affected } } }

def withTransaction (delta : ChainTxDelta) (affected : List ContractId)
    (write : BackfillWrite) : BackfillWrite :=
  { write with
    chain := { write.chain with
      transactions := write.chain.transactions.insert delta.position (delta.toRow affected)
      outputs := write.chain.outputs.insertAll
        (delta.allOutpoints.map fun outpoint => (outpoint, ⟨delta.position, outpoint⟩)) }
    undo := write.undo.map fun undo => { undo with
      transactionPositions := undo.transactionPositions ++ [delta.position]
      outputOutpoints := undo.outputOutpoints ++ delta.allOutpoints } }

theorem storeTransaction_ok {affected : List ContractId}
    (hstore : write.storeTransaction delta affected = .ok next) :
    (∃ stored merged, write.chain.transactions[delta.position]? = some (delta.toRow stored) ∧
      next = write.withAffected (delta.toRow stored) merged) ∨
    write.chain.transactions[delta.position]? = none ∧
      next = write.withTransaction delta affected := by
  unfold storeTransaction at hstore
  split at hstore
  · next stored hstored =>
    simp only [bind_eq_ok, require_eq_ok, pure_eq_ok] at hstore
    obtain ⟨-, ⟨hposition, hhash, htxid, hraw⟩, rfl⟩ := hstore
    have hrow : stored = delta.toRow stored.affectedContractIds := by
      cases stored
      simp_all [ChainTxDelta.toRow]
    refine .inl ⟨stored.affectedContractIds,
      sortDedupContracts (stored.affectedContractIds ++ affected), ?_, ?_⟩
    · rw [← hrow]
      exact hstored
    · rw [← hrow, withAffected, hposition]
  · next habsent =>
    simp only [bind_eq_ok, require_eq_ok, pure_eq_ok] at hstore
    obtain ⟨-, -, rfl⟩ := hstore
    exact .inr ⟨habsent, rfl⟩

def advanced (hashing : Hashing) (delta : BlockDelta) (nextHeight : ℕ)
    (write : BackfillWrite) (item : BackfillProgress) (before : ContractRecord)
    (syncState : ContractSyncState) (pinnedTip : ChainAnchor)
    (journal : EventJournal) (readyContracts : List ContractId) :
    BackfillWrite :=
  { write with
    chain := { write.chain with
      contractTables := (write.chain.contractTables.removeContract hashing
        before).putContract hashing { before with syncState }
      backfillProgress := write.chain.backfillProgress.insert item.contractId
        { item with
          nextPosition := ⟨nextHeight, 0⟩
          lastApplied := some (delta.anchor, hashing.digest delta)
          pinnedTip } }
    undo := write.undo.map fun undo => { undo with
      contractChanges :=
        if item.contractId ∈ write.changedContracts then undo.contractChanges
        else undo.contractChanges ++ [⟨item.contractId, some before⟩] }
    journal
    readyContracts }

theorem advanceTarget_ok {delta : BlockDelta} {nextHeight : ℕ} {item : BackfillProgress}
    (hadvance : write.advanceTarget hashing delta nextHeight item = .ok next) :
    ∃ before syncState pinnedTip journal readyContracts,
      write.chain.contractTables.contracts[item.contractId]? = some before ∧
      before.syncState.isCatchingUp = true ∧
      (write.chain.contractTables.removeContract hashing before).Insertable
        hashing { before with syncState } ∧
      (syncState = if delta.anchor = write.chain.tip then .ready delta.anchor
        else .catchingUp delta.anchor) ∧
      (pinnedTip = if item.pinnedTip = delta.anchor ∧
          write.chain.tip ≠ delta.anchor then write.chain.tip
        else item.pinnedTip) ∧
      next = write.advanced hashing delta nextHeight item before syncState
        pinnedTip journal readyContracts := by
  simp only [advanceTarget, bind_eq_ok, okOr_eq_ok, require_eq_ok,
    ContractTables.insertContract_eq_ok, decide_eq_true_eq] at hadvance
  obtain ⟨before, hbefore, -, hcatching, _, ⟨hinsertable, rfl⟩, _, -, hadvance⟩ := hadvance
  split at hadvance
  · next hready =>
    simp only [bind_eq_ok, pure_eq_ok, if_pos hready] at hadvance hinsertable
    obtain ⟨journal, -, rfl⟩ := hadvance
    exact ⟨before, _, _, journal, _, hbefore, hcatching, hinsertable,
      (if_pos hready).symm, rfl, rfl⟩
  · next hbehind =>
    simp only [bind_eq_ok, pure_eq_ok, if_neg hbehind] at hadvance hinsertable
    obtain ⟨journal, -, rfl⟩ := hadvance
    exact ⟨before, _, _, journal, _, hbefore, hcatching, hinsertable,
      (if_neg hbehind).symm, rfl, rfl⟩

end BackfillWrite

theorem readProgress_ok (hread : readProgress chain targets = .ok progress) :
    ∀ item ∈ progress, ∃ c ∈ targets, chain.backfillProgress[c]? = some item := by
  intro item hitem
  obtain ⟨c, hc, hrow⟩ := (mem_of_mapM_eq_ok hread).mp hitem
  exact ⟨c, hc, okOr_eq_ok.mp hrow⟩

theorem exists_mem_of_readProgress
    (hread : readProgress chain targets = .ok progress) {c : ContractId} (hc : c ∈ targets) :
    ∃ item ∈ progress, chain.backfillProgress[c]? = some item := by
  induction targets generalizing progress with
  | nil => cases hc
  | cons c' rest ih =>
    simp only [readProgress, List.mapM_cons, bind_eq_ok, okOr_eq_ok, pure_eq_ok] at hread
    obtain ⟨head, hhead, tail, htail, rfl⟩ := hread
    rcases List.mem_cons.mp hc with rfl | hc
    · exact ⟨head, List.mem_cons_self, hhead⟩
    · obtain ⟨item, hitem, hrow⟩ := ih htail hc
      exact ⟨item, List.mem_cons_of_mem _ hitem, hrow⟩

theorem readProgress_ids
    (hkeyed : ∀ (c : ContractId) (item : BackfillProgress),
      chain.backfillProgress[c]? = some item → item.contractId = c)
    (hread : readProgress chain targets = .ok progress) :
    progress.map BackfillProgress.contractId = targets := by
  induction targets generalizing progress with
  | nil =>
    simp only [readProgress, List.mapM_nil, pure_eq_ok] at hread
    subst hread
    rfl
  | cons c rest ih =>
    simp only [readProgress, List.mapM_cons, bind_eq_ok, okOr_eq_ok, pure_eq_ok] at hread
    obtain ⟨head, hhead, tail, htail, rfl⟩ := hread
    rw [List.map_cons, hkeyed c head hhead, ih htail]

theorem ChainTables.height_le_of_canonicalAnchor
    {height : ℕ} {anchor : ChainAnchor} (hanchor : chain.canonicalAnchor height = some anchor) :
    height ≤ chain.tip.height := by
  unfold canonicalAnchor at hanchor
  split at hanchor
  · cases hanchor
  · omega

theorem ChainTables.height_lt_of_canonicalAnchor {anchor : ChainAnchor}
    (hanchor : chain.canonicalAnchor anchor.height = some anchor)
    (hne : anchor ≠ chain.tip) : anchor.height < chain.tip.height := by
  have hle := height_le_of_canonicalAnchor hanchor
  refine Nat.lt_of_le_of_ne hle ?_
  intro hsame
  rw [canonicalAnchor, hsame, if_neg (Nat.lt_irrefl _), if_pos rfl] at hanchor
  exact hne (Option.some.inj hanchor).symm

theorem mem_sortDedupContracts {contracts : List ContractId} {c : ContractId} :
    c ∈ sortDedupContracts contracts ↔ c ∈ contracts := by
  have hsorted : (contracts.insertionSort (· ≤ ·)).Pairwise (· ≤ ·) :=
    List.pairwise_insertionSort _ _
  rw [sortDedupContracts, hsorted.destutter_eq_dedup, List.mem_dedup, List.mem_insertionSort]

theorem nodup_sortDedupContracts (contracts : List ContractId) :
    (sortDedupContracts contracts).Nodup := by
  have hsorted : (contracts.insertionSort (· ≤ ·)).Pairwise (· ≤ ·) :=
    List.pairwise_insertionSort _ _
  rw [sortDedupContracts, hsorted.destutter_eq_dedup]
  exact List.nodup_dedup _

def Store.startBackfill (store : Store) (delta : BlockDelta)
    (progress : List BackfillProgress) : BackfillWrite where
  chain := store.chain
  journal := store.journal
  undo := (store.undoBlocks[delta.anchor.height]?).map (UndoBlock.recordProgress · progress)

structure Store.Backfills (hashing : Hashing) (store : Store)
    (targets : List ContractId) (delta : BlockDelta)
    (progress : List BackfillProgress) (replayed write : BackfillWrite) : Prop where
  shaped : delta.Shaped hashing
  targeted : targets ≠ []
  nodup : targets.Nodup
  status : store.syncStatus ≠ .rescanRequired
  canonical : store.chain.canonicalAnchor delta.anchor.height = some delta.anchor
  stored : ∀ block, store.chain.blocks[delta.anchor.height]? = some block →
    block.anchor = delta.anchor ∧ block.prevBlockHash = delta.prevBlockHash ∧
      block.orderedTxids = delta.orderedTxids
  read : readProgress store.chain targets = .ok progress
  cursors : ∀ item ∈ progress, item.nextPosition.blockHeight = delta.anchor.height ∧
      delta.anchor.height ≤ item.pinnedTip.height
  replay : delta.relevantTransactions.foldlM
    (BackfillWrite.applyBackfillTransaction hashing targets)
    (store.startBackfill delta progress) = .ok replayed
  advance : progress.foldlM (BackfillWrite.advanceTarget hashing delta
    (delta.anchor.height + 1)) replayed = .ok write

theorem Store.applyBackfillBlock_ok {hashing : Hashing} {store next : Store}
    {contractIds : List ContractId} {delta : BlockDelta} {result : ApplyBackfillResult}
    (happly : store.applyBackfillBlock hashing contractIds delta = .ok (result, next)) :
    result.applied = false ∧ next = store ∨ result.applied = true ∧ ∃ progress replayed write,
        store.Backfills hashing (sortDedupContracts contractIds) delta progress replayed write ∧
        next = store.commitBackfill delta write := by
  simp only [applyBackfillBlock, bind_eq_ok, require_eq_ok] at happly
  obtain ⟨_, hshape, -, hnonempty, -, -, -, hstatus, _, hverify, progress,
    hprogress, happly⟩ := happly
  simp only [verifyBackfillBlock, bind_eq_ok, require_eq_ok] at hverify
  obtain ⟨-, hcanonical, hstored⟩ := hverify
  split at happly
  · simp only [bind_eq_ok, pure_eq_ok, Prod.mk.injEq] at happly
    obtain ⟨ready, -, rfl, rfl⟩ := happly
    exact .inl ⟨rfl, rfl⟩
  · simp only [bind_eq_ok, okOr_eq_ok, checkedAdd_eq_some, forM_eq_ok,
      require_eq_ok, pure_eq_ok, Prod.mk.injEq] at happly
    obtain ⟨-, hcursors, -, -, replayed, hreplayed, _, ⟨rfl, -⟩, write, hwrite, rfl, rfl⟩ := happly
    refine .inr ⟨rfl, progress, replayed, write, ?_, rfl⟩
    have htargeted : sortDedupContracts contractIds ≠ [] := by
      obtain ⟨c, hc⟩ := List.exists_mem_of_ne_nil _ hnonempty
      exact List.ne_nil_of_mem (mem_sortDedupContracts.mpr hc)
    refine ⟨validateBlockShape_ok hshape, htargeted,
      nodup_sortDedupContracts contractIds, hstatus, hcanonical, ?_,
      hprogress, hcursors, hreplayed, hwrite⟩
    intro block hblock
    simpa only [hblock, require_eq_ok] using hstored

end DeadcatNode
