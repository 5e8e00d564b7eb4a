import DeadcatNode.NodeStoreOperations

/-!
# Rollback inverts application

From every reachable store, applying one or two blocks and rolling back to the
old tip restores every table derived from the chain.  What differs is the event
journal, the sync status and the undo rows which the applications pruned.
-/

namespace DeadcatNode

open Checked

variable {hashing : Hashing}

/-- No transaction id occurs in two blocks. -/
def NoRepeatedTxid (blocks : Table ℕ StoredBlock) : Prop :=
  ∀ (h h' : ℕ) (block block' : StoredBlock) (txid : Txid),
    blocks[h]? = some block → blocks[h']? = some block' →
      txid ∈ block.orderedTxids → txid ∈ block'.orderedTxids → h = h'

/-- A block is appended to the branch. -/
def Store.AppliesBlock (hashing : Hashing) (store : Store) (delta : BlockDelta)
    (next : Store) : Prop :=
  ∃ result, store.applyBlock hashing delta = .ok (result, next) ∧ result.applied = true

/-- Blocks are accepted one after the other.  A repeated block is acknowledged
and leaves the store as it is. -/
inductive Store.AcceptsBlocks (hashing : Hashing) : Store → List BlockDelta → Store → Prop where
  | nil (store : Store) : AcceptsBlocks hashing store [] store
  | cons {store mid next : Store} {delta : BlockDelta}
      {deltas : List BlockDelta} {result : ApplyBlockResult}
      (hfirst : store.applyBlock hashing delta = .ok (result, mid))
      (hrest : AcceptsBlocks hashing mid deltas next) :
      AcceptsBlocks hashing store (delta :: deltas) next

namespace Store

variable {hashing : Hashing} {store next : Store} {delta : BlockDelta}

theorem AppliesBlock.extends (happlies : store.AppliesBlock hashing delta next) :
    ∃ write, store.Extends hashing delta write ∧
      next = store.commitBlock hashing delta write := by
  obtain ⟨result, happly, happlied⟩ := happlies
  rcases applyBlock_ok happly with ⟨hfalse, -⟩ | ⟨-, write, hextends, rfl⟩
  · rw [happlied] at hfalse
    cases hfalse
  · exact ⟨write, hextends, rfl⟩

theorem unchanged_or_appliesBlock {result : ApplyBlockResult}
    (happly : store.applyBlock hashing delta = .ok (result, next)) :
    next = store ∨ store.AppliesBlock hashing delta next := by
  rcases applyBlock_ok happly with ⟨-, hsame⟩ | ⟨happlied, -⟩
  · exact .inl hsame
  · exact .inr ⟨result, happly, happlied⟩

theorem AppliesBlock.reachable (hstore : store.Reachable hashing)
    (happlies : store.AppliesBlock hashing delta next) :
    next.Reachable hashing := by
  obtain ⟨result, happly, -⟩ := happlies
  have hperform : store.perform hashing (.applyBlock delta) = .ok next := by simp [perform, happly]
  exact .step hstore trivial hperform

end Store

/-! ## One block -/

theorem Index.WellFormed.fresh {index : Index}
    {activation : ℕ} {delta : BlockDelta} (hindex : index.WellFormed hashing activation)
    (hshaped : delta.Shaped hashing) (hheight : delta.anchor.height = index.chain.tip.height + 1)
    (hnew : ∀ (h : ℕ) (block : StoredBlock),
      index.chain.blocks[h]? = some block → ∀ txid ∈ delta.orderedTxids, txid ∉ block.orderedTxids)
    {transaction : ChainTxDelta} (htransaction : transaction ∈ delta.relevantTransactions) :
    index.chain.transactions[transaction.position]? = none ∧
      ∀ outpoint ∈ transaction.allOutpoints, index.chain.outputs[outpoint]? = none := by
  have hshape := hshaped.transactions transaction htransaction
  constructor
  · by_contra hsome
    obtain ⟨row, hrow⟩ := Option.ne_none_iff_exists'.mp hsome
    have hle := hindex.placed.height_le_tip hindex.linked hrow
    have hposition := hshape.height
    omega
  · intro outpoint houtpoint
    by_contra hsome
    obtain ⟨ref, href⟩ := Option.ne_none_iff_exists'.mp hsome
    obtain ⟨⟨row, hrow, htxid⟩, -⟩ := hindex.placed.outputs outpoint ref href
    obtain ⟨-, ⟨block, hblock, hlists⟩, -⟩ := hindex.placed.transactions _ row hrow
    obtain ⟨vout, -, rfl⟩ := List.mem_map.mp houtpoint
    have hold : transaction.txid ∈ block.orderedTxids := by
      have hrowTxid : row.txid = transaction.txid := htxid
      rw [← hrowTxid]
      exact List.mem_of_getElem? hlists.txid
    exact hnew _ block hblock _ (List.mem_of_getElem? hshape.listed) hold

theorem Store.Extends.reverts {store : Store}
    {delta : BlockDelta} {write : BlockWrite} (hextends : store.Extends hashing delta write)
    (hindex : store.index.WellFormed hashing store.activationAnchor.height)
    (hnew : ∀ (h : ℕ) (block : StoredBlock),
      store.chain.blocks[h]? = some block → ∀ txid ∈ delta.orderedTxids,
        txid ∉ block.orderedTxids) : write.Reverts hashing store.chain := by
  have hfresh : ∀ transaction ∈ delta.relevantTransactions, _ :=
    fun transaction htransaction => hindex.fresh hextends.shaped hextends.height hnew htransaction
  refine (BlockWrite.Reverts.start store.journal hindex.placed.exact).applyDelta
    ?_ (fun transaction hmem => (hfresh transaction hmem).1)
    (fun transaction hmem => (hfresh transaction hmem).2) hextends.written
  intro c item hitem
  exact (hindex.placed.progress c item hitem).1

theorem BlockWrite.Reverts.undoBlock {origin : ChainTables} {write : BlockWrite}
    (hreverts : write.Reverts hashing origin) {height : ℕ}
    (habsent : origin.blocks[height]? = none) (block : StoredBlock)
    (tip : ChainAnchor) {rollback : RollbackWrite}
    (hchain : rollback.chain = { write.chain with
      blocks := write.chain.blocks.insert height block
      tip := tip })
    (hundo : rollback.undoBlocks[height]? = some write.undo) :
    ∃ positions affected, rollback.undoBlock hashing height =
      .ok ⟨origin, rollback.undoBlocks.erase height, positions, affected⟩ := by
  obtain ⟨affected, hreplay⟩ := hreverts.contracts rollback.affectedContractIds
  refine ⟨rollback.orphanedPositions ++ write.undo.transactionPositions, affected, ?_⟩
  have hblocks : (write.chain.blocks.insert height block).erase height = origin.blocks := by
    rw [hreverts.blocks]
    exact Table.erase_insert_of_absent block habsent
  simp only [RollbackWrite.undoBlock, bind_eq_ok, okOr_eq_ok, pure_eq_ok, Prod.exists]
  refine ⟨write.undo, hundo, origin.contractTables, affected, ?_, ?_⟩
  · rw [hchain]
    exact hreplay
  · simp only [hchain, ChainTables.undoRows, hblocks, hreverts.transactions,
      hreverts.outputs, hreverts.history, hreverts.hints, hreverts.progress, hreverts.previousTip]

/-! ## The rollback -/

namespace Store

variable {hashing : Hashing} {store next : Store} {delta : BlockDelta}

theorem rollbackTo_of_undoBlocks (ancestor : ChainAnchor) (epoch : ℕ)
    {write : RollbackWrite} (hstatus : store.syncStatus ≠ .rescanRequired)
    (hbelow : ancestor.height < store.chain.tip.height)
    (hdepth : store.chain.tip.height - ancestor.height ≤ undoRetentionBlocks)
    (havailable : undoRangeAvailable store.undoBlocks store.chain.tip.height ancestor.height = true)
    (hwrite : (rollbackHeights store.chain.tip.height ancestor.height).foldlM
      (RollbackWrite.undoBlock hashing)
      ⟨store.chain, store.undoBlocks, [], []⟩ = .ok write)
    (htip : write.chain.tip = ancestor) :
    ∃ positions event, store.rollbackTo hashing ancestor epoch =
      (store.journal.appendEvent event >>= fun journal => .ok
        (.rolledBack store.chain.tip ancestor positions journal.highWatermark, { store with
            chain := write.chain
            undoBlocks := write.undoBlocks
            syncStatus := .syncing
            journal })) := by
  have hne : ancestor ≠ store.chain.tip := by
    rintro rfl
    omega
  have hretained : ¬(undoRetentionBlocks < store.chain.tip.height - ancestor.height ∨
      undoRangeAvailable store.undoBlocks store.chain.tip.height ancestor.height = false) := by
    rw [havailable]
    simp only [Bool.true_eq_false, or_false]
    omega
  refine ⟨write.orphanedPositions.insertionSort (· ≤ ·), .chainRolledBack store.chain.tip ancestor
      (write.orphanedPositions.insertionSort (· ≤ ·))
      (sortDedupContracts write.affectedContractIds), ?_⟩
  simp only [rollbackTo, require, hstatus, not_false_eq_true, ne_eq, if_true,
    if_neg hne, hbelow, if_neg hretained, hwrite, ok_bind, htip]
  rfl

theorem Reachable.no_undo_above (hstore : store.Reachable hashing) {h : ℕ}
    (habove : store.chain.tip.height < h) : store.undoBlocks[h]? = none := by
  by_contra hsome
  obtain ⟨undo, hundo⟩ := Option.ne_none_iff_exists'.mp hsome
  have hle := (hstore.wellFormed.linked.undo h undo hundo).2.1
  have htip : store.index.chain.tip = store.chain.tip := rfl
  rw [htip] at hle
  omega

section

variable (hstore : store.Reachable hashing) (happlies : store.AppliesBlock hashing delta next)
  (hunique : NoRepeatedTxid next.chain.blocks)

include happlies

theorem AppliesBlock.undo_rows {h : ℕ} (hne : h ≠ next.chain.tip.height) :
    next.undoBlocks[h]? =
      if next.chain.tip.height - 1 ≤ h then store.undoBlocks[h]? else none := by
  obtain ⟨write, -, rfl⟩ := happlies.extends
  have htip : (store.commitBlock hashing delta write).chain.tip = delta.anchor := rfl
  rw [htip] at hne ⊢
  simp only [commitBlock]
  rw [Index.row_pruneUndo, Table.row_insert, if_neg (Ne.symm hne)]

include hstore hunique in
theorem AppliesBlock.undoBlock (rollback : RollbackWrite)
    (hchain : rollback.chain = next.chain)
    (hundo : rollback.undoBlocks[next.chain.tip.height]? =
      next.undoBlocks[next.chain.tip.height]?) :
    ∃ positions affected, rollback.undoBlock hashing next.chain.tip.height =
        .ok ⟨store.chain, rollback.undoBlocks.erase next.chain.tip.height,
          positions, affected⟩ := by
  obtain ⟨write, hextends, rfl⟩ := happlies.extends
  have hindex := hstore.wellFormed
  have hblocks : write.chain.blocks = store.chain.blocks :=
    (BlockWrite.kept_applyDelta hextends.written).1
  have hnew : ∀ (h : ℕ) (block : StoredBlock),
      store.chain.blocks[h]? = some block → ∀ txid ∈ delta.orderedTxids,
        txid ∉ block.orderedTxids := by
    intro h block hblock txid htxid hmem
    have hne : delta.anchor.height ≠ h := by
      intro hsame
      rw [← hsame, hextends.absent] at hblock
      cases hblock
    have hsame : h = delta.anchor.height := by
      refine hunique h delta.anchor.height block (.ofDelta hashing delta) txid ?_ ?_ hmem htxid
      · simp only [commitBlock, hblocks, Table.row_insert, if_neg hne]
        exact hblock
      · simp [commitBlock]
    exact hne hsame.symm
  refine (hextends.reverts hindex hnew).undoBlock hextends.absent
    (.ofDelta hashing delta) delta.anchor hchain ?_
  rw [show (store.commitBlock hashing delta write).chain.tip = delta.anchor from rfl] at hundo
  rw [hundo]
  simp only [commitBlock]
  rw [Index.row_pruneUndo, Table.row_insert, if_pos rfl]
  simp

theorem AppliesBlock.blocks_kept {h : ℕ}
    {block : StoredBlock} (hblock : store.chain.blocks[h]? = some block) :
    next.chain.blocks[h]? = some block := by
  obtain ⟨write, hextends, rfl⟩ := happlies.extends
  have hne : delta.anchor.height ≠ h := by
    intro hsame
    rw [← hsame, hextends.absent] at hblock
    cases hblock
  simp only [commitBlock, (BlockWrite.kept_applyDelta hextends.written).1,
    Table.row_insert, if_neg hne]
  exact hblock

theorem AppliesBlock.kept :
    next.chain.tip.height = store.chain.tip.height + 1 ∧
      next.syncStatus ≠ .rescanRequired ∧
      next.retainedDeclarations = store.retainedDeclarations ∧
      next.activationAnchor = store.activationAnchor ∧
      (next.undoBlocks[next.chain.tip.height]?).isSome := by
  obtain ⟨write, hextends, rfl⟩ := happlies.extends
  refine ⟨hextends.height, hextends.status, rfl, rfl, ?_⟩
  have htip : (store.commitBlock hashing delta write).chain.tip = delta.anchor := rfl
  rw [htip]
  simp only [commitBlock]
  rw [Index.row_pruneUndo, Table.row_insert, if_pos rfl]
  simp

/-- Every table other than the event journal and the sync status is back, and
the undo rows are those which were not pruned. -/
structure Restores (pruned : ℕ) (store restored : Store) : Prop where
  chain : restored.chain = store.chain
  undo : ∀ h : ℕ, restored.undoBlocks[h]? =
    if pruned ≤ h then store.undoBlocks[h]? else none
  declarations : restored.retainedDeclarations = store.retainedDeclarations
  activation : restored.activationAnchor = store.activationAnchor
  epoch : restored.journal.epoch = store.journal.epoch

theorem AppliesBlock.journal_epoch :
    next.journal.epoch = store.journal.epoch := by
  obtain ⟨write, hextends, rfl⟩ := happlies.extends
  exact (BlockWrite.kept_applyDelta hextends.written).2

include hstore hunique in
theorem AppliesBlock.rollbackTo_eq (epoch : ℕ) :
    ∃ positions event, ∃ write : RollbackWrite,
      (write.chain = store.chain ∧ write.undoBlocks = next.undoBlocks.erase next.chain.tip.height) ∧
      next.rollbackTo hashing store.chain.tip epoch =
        (next.journal.appendEvent event >>= fun journal => .ok
          (.rolledBack next.chain.tip store.chain.tip positions journal.highWatermark, { next with
              chain := write.chain
              undoBlocks := write.undoBlocks
              syncStatus := .syncing
              journal })) := by
  obtain ⟨hheight, hstatus, hdeclarations, hactivation, hretained⟩ := happlies.kept
  obtain ⟨positions, affected, hundo⟩ := happlies.undoBlock hstore hunique
    ⟨next.chain, next.undoBlocks, [], []⟩ rfl rfl
  have hheights : rollbackHeights next.chain.tip.height
      store.chain.tip.height = [next.chain.tip.height] := by
    rw [hheight]
    simp [rollbackHeights]
  have havailable : undoRangeAvailable next.undoBlocks next.chain.tip.height
      store.chain.tip.height = true := by
    rw [hheight] at hretained ⊢
    simpa [undoRangeAvailable] using hretained
  set write : RollbackWrite := ⟨store.chain,
    next.undoBlocks.erase next.chain.tip.height, positions, affected⟩
  have hwrite : (rollbackHeights next.chain.tip.height
      store.chain.tip.height).foldlM (RollbackWrite.undoBlock hashing)
        ⟨next.chain, next.undoBlocks, [], []⟩ = .ok write := by
    simp only [hheights, List.foldlM_cons, List.foldlM_nil, hundo, bind_eq_ok, pure_eq_ok]
    exact ⟨_, rfl, rfl⟩
  obtain ⟨orphaned, event, hrollback⟩ :=
    rollbackTo_of_undoBlocks store.chain.tip epoch hstatus (by omega)
      (by rw [undoRetentionBlocks]; omega) havailable hwrite rfl
  exact ⟨orphaned, event, write, ⟨rfl, rfl⟩, hrollback⟩

include hstore hunique in
theorem AppliesBlock.rollback
    (hroom : next.journal.sequence + 1 < 2 ^ 64) (epoch : ℕ) : ∃ positions cursor restored,
      next.rollbackTo hashing store.chain.tip epoch =
        .ok (.rolledBack next.chain.tip store.chain.tip positions cursor, restored) ∧
      store.Restores (next.chain.tip.height - 1) restored := by
  obtain ⟨hheight, -, hdeclarations, hactivation, -⟩ := happlies.kept
  obtain ⟨orphaned, event, write, ⟨hchain, hundo⟩, hrollback⟩ :=
    happlies.rollbackTo_eq hstore hunique epoch
  obtain ⟨journal, hjournal, hepoch, -⟩ := EventJournal.appendEvent_of_room event hroom
  rw [hjournal] at hrollback
  refine ⟨orphaned, journal.highWatermark, _, hrollback, ⟨hchain, ?_,
    hdeclarations, hactivation, hepoch.trans happlies.journal_epoch⟩⟩
  intro h
  dsimp only
  rw [hundo, Table.row_erase]
  split
  · next hsame =>
    have hnone : store.undoBlocks[h]? = none := hstore.no_undo_above (by omega)
    rw [hnone, ite_self]
  · next hne => exact happlies.undo_rows (Ne.symm hne)

end

theorem AppliesBlock.rollback_two {mid : Store} {delta' : BlockDelta}
    (hstore : store.Reachable hashing) (hfirst : store.AppliesBlock hashing delta mid)
    (hsecond : mid.AppliesBlock hashing delta' next) (hunique : NoRepeatedTxid next.chain.blocks)
    (hroom : next.journal.sequence + 1 < 2 ^ 64) (epoch : ℕ) : ∃ positions cursor restored,
      next.rollbackTo hashing store.chain.tip epoch =
        .ok (.rolledBack next.chain.tip store.chain.tip positions cursor, restored) ∧
      store.Restores (next.chain.tip.height - 1) restored := by
  have hmid := hfirst.reachable hstore
  obtain ⟨hmidHeight, -, hmidDeclarations, hmidActivation, hmidRetained⟩ := hfirst.kept
  obtain ⟨hheight, hstatus, hdeclarations, hactivation, hretained⟩ := hsecond.kept
  have hlower : next.undoBlocks[mid.chain.tip.height]? = mid.undoBlocks[mid.chain.tip.height]? := by
    rw [hsecond.undo_rows (by omega), if_pos (by omega)]
  have huniqueMid : NoRepeatedTxid mid.chain.blocks := by
    intro h h' block block' txid hblock hblock'
    exact hunique h h' block block' txid (hsecond.blocks_kept hblock) (hsecond.blocks_kept hblock')
  obtain ⟨positions, affected, hundo⟩ := hsecond.undoBlock hmid hunique
    ⟨next.chain, next.undoBlocks, [], []⟩ rfl rfl
  obtain ⟨positions', affected', hundo'⟩ := hfirst.undoBlock hstore huniqueMid
    ⟨mid.chain, next.undoBlocks.erase next.chain.tip.height, positions, affected⟩ rfl (by
        rw [Table.row_erase, if_neg (by omega)]
        exact hlower)
  have hheights : rollbackHeights next.chain.tip.height
      store.chain.tip.height = [next.chain.tip.height, mid.chain.tip.height] := by
    rw [hheight, hmidHeight]
    simp [rollbackHeights, Nat.add_assoc, List.range_succ]
  have havailable : undoRangeAvailable next.undoBlocks next.chain.tip.height
      store.chain.tip.height = true := by
    rw [hheight] at hretained
    rw [← hlower] at hmidRetained
    rw [hmidHeight] at hretained hmidRetained
    simp only [undoRangeAvailable, hheight, hmidHeight]
    simp [Nat.add_assoc, List.range_succ] at hretained hmidRetained ⊢
    exact ⟨hmidRetained, hretained⟩
  have hwrite : (rollbackHeights next.chain.tip.height
      store.chain.tip.height).foldlM (RollbackWrite.undoBlock hashing)
        ⟨next.chain, next.undoBlocks, [], []⟩ =
      .ok ⟨store.chain, (next.undoBlocks.erase next.chain.tip.height).erase
        mid.chain.tip.height, positions', affected'⟩ := by
    simp only [hheights, List.foldlM_cons, List.foldlM_nil, hundo, bind_eq_ok, pure_eq_ok]
    exact ⟨_, rfl, _, hundo', rfl⟩
  obtain ⟨orphaned, event, hrollback⟩ :=
    rollbackTo_of_undoBlocks store.chain.tip epoch hstatus (by omega)
      (by rw [undoRetentionBlocks]; omega) havailable hwrite rfl
  obtain ⟨journal, hjournal, hepoch, -⟩ := EventJournal.appendEvent_of_room event hroom
  rw [hjournal] at hrollback
  refine ⟨orphaned, journal.highWatermark, _, hrollback, ⟨rfl, ?_,
    hdeclarations.trans hmidDeclarations, hactivation.trans hmidActivation,
    (hepoch.trans hsecond.journal_epoch).trans hfirst.journal_epoch⟩⟩
  intro h
  dsimp only
  rw [Table.row_erase, Table.row_erase]
  by_cases hlow : next.chain.tip.height - 1 ≤ h
  · have hnone : store.undoBlocks[h]? = none := hstore.no_undo_above (by omega)
    rw [if_pos hlow, hnone]
    split
    · rfl
    · split
      · rfl
      · rw [hsecond.undo_rows (by omega), if_pos hlow, hfirst.undo_rows (by omega), hnone, ite_self]
  · rw [if_neg hlow, if_neg (by omega), if_neg (by omega),
      hsecond.undo_rows (by omega), if_neg hlow]

/-- Rolling back to the old tip after one or two accepted blocks undoes them,
as long as the tip has moved and the event journal has room for the event of
the rollback. -/
theorem rollback_restores_accepted_blocks {accepted : Store}
    (hstore : store.Reachable hashing) {deltas : List BlockDelta}
    (hcount : deltas.length = 1 ∨ deltas.length = 2)
    (haccepts : store.AcceptsBlocks hashing deltas accepted)
    (hmoved : accepted.chain.tip ≠ store.chain.tip) (hunique : NoRepeatedTxid accepted.chain.blocks)
    (hroom : accepted.journal.sequence + 1 < 2 ^ 64) (epoch : ℕ) :
    ∃ positions cursor restored, accepted.rollbackTo hashing store.chain.tip epoch =
        .ok (.rolledBack accepted.chain.tip store.chain.tip positions cursor, restored) ∧
      store.Restores (accepted.chain.tip.height - 1) restored := by
  match haccepts with
  | .cons hfirst (.nil _) =>
    rcases unchanged_or_appliesBlock hfirst with rfl | happlies
    · exact absurd rfl hmoved
    · exact happlies.rollback hstore hunique hroom epoch
  | .cons hfirst (.cons hsecond (.nil _)) =>
    rcases unchanged_or_appliesBlock hfirst with rfl | happlies <;>
      rcases unchanged_or_appliesBlock hsecond with rfl | happlies'
    · exact absurd rfl hmoved
    · exact happlies'.rollback hstore hunique hroom epoch
    · exact happlies.rollback hstore hunique hroom epoch
    · exact happlies.rollback_two hstore happlies' hunique hroom epoch
  | .nil _ => simp at hcount
  | .cons _ (.cons _ (.cons _ _)) =>
    simp only [List.length_cons] at hcount
    omega

end Store

/-! ## The journal can be full -/

/-- Hash functions for runs on fixed inputs: a transaction is identified by
its lock time, a script by its length and a delta by its block. -/
def sampleHashing : Hashing where
  txid transaction := transaction.lockTime
  scriptHash script := script.length
  digest delta := delta.anchor.hash

def sampleAnchor : ChainAnchor := ⟨0, 100⟩

def quietBlock : BlockDelta where
  anchor := ⟨1, 101⟩
  prevBlockHash := 100
  orderedTxids := [7]
  relevantTransactions := []
  recoveryHints := []

theorem applies_quietBlock {store : Store} (hchain : store.chain = .atAnchor sampleAnchor)
    (hstatus : store.syncStatus ≠ .rescanRequired) :
    store.AppliesBlock sampleHashing quietBlock
      (store.commitBlock sampleHashing quietBlock store.startBlock) := by
  have hshape : validateBlockShape sampleHashing quietBlock = .ok () := rfl
  have habsent : store.chain.blocks[quietBlock.anchor.height]? = none := by
    rw [hchain]
    exact Table.row_empty _
  have hwrite : store.startBlock.applyDelta sampleHashing quietBlock = .ok store.startBlock := by
    have hprogress : store.startBlock.chain.backfillProgress = ∅ := by
      rw [Store.startBlock, hchain]
      rfl
    simp [BlockWrite.applyDelta, quietBlock,
      BlockWrite.advanceCatchingThroughCanonicalBlock, hprogress]
  refine ⟨⟨true, quietBlock.anchor, store.journal.highWatermark⟩, ?_, rfl⟩
  have hheight : checkedAdd 32 store.chain.tip.height 1 = some quietBlock.anchor.height := by
    rw [hchain]
    rfl
  have hprevious : quietBlock.prevBlockHash = store.chain.tip.hash := by
    rw [hchain]
    rfl
  exact Store.applyBlock_of_written hshape hstatus habsent hheight hprevious hwrite

theorem noRepeatedTxid_quietBlock {store : Store} (hchain : store.chain = .atAnchor sampleAnchor) :
    NoRepeatedTxid (store.commitBlock sampleHashing quietBlock store.startBlock).chain.blocks := by
  have hrow : ∀ (h : ℕ) (block : StoredBlock), (store.commitBlock sampleHashing quietBlock
        store.startBlock).chain.blocks[h]? = some block → h = 1 := by
    intro h block hblock
    simp only [Store.commitBlock, Store.startBlock, hchain,
      ChainTables.atAnchor, Table.row_insert, Table.row_empty] at hblock
    split at hblock
    · next hsame => exact hsame.symm
    · cases hblock
  intro h h' block block' txid hblock hblock' _ _
  rw [hrow h block hblock, hrow h' block' hblock']

theorem exists_reachable_sequence (n : ℕ) (hn : n < 2 ^ 64) :
    ∃ store : Store, store.Reachable sampleHashing ∧
      store.chain = .atAnchor sampleAnchor ∧ store.journal.sequence = n ∧
      store.syncStatus ≠ .rescanRequired := by
  induction n with
  | zero => exact ⟨.initial sampleAnchor 0, .initial _ _, rfl, rfl, by decide⟩
  | succ n ih =>
    obtain ⟨store, hreachable, hchain, hsequence, hstatus⟩ := ih (by omega)
    obtain ⟨status, hother, hvalid⟩ : ∃ status, store.syncStatus ≠ status ∧
        status ≠ SyncStatus.rescanRequired := by
      by_cases hready : store.syncStatus = .ready
      · exact ⟨.syncing, by rw [hready]; decide, by decide⟩
      · exact ⟨.ready, hready, by decide⟩
    have hroom : checkedAdd 64 store.journal.sequence 1 = some (n + 1) :=
      checkedAdd_eq_some.mpr ⟨by rw [hsequence], hn⟩
    have hperform : store.perform sampleHashing (.setSyncStatus status 0) = .ok { store with
          syncStatus := status
          journal := { store.journal with
            sequence := n + 1
            rows := store.journal.rows.insert ⟨store.journal.epoch, n + 1⟩
              (.syncStatusChanged status) } } := by
      simp only [Store.perform, Store.setSyncStatus, if_neg hvalid, require,
        hstatus, ne_eq, not_false_eq_true, if_true, if_neg hother, ok_bind,
        EventJournal.appendEvent, hroom, okOr]
      rfl
    exact ⟨_, .step hreachable trivial hperform, hchain, rfl, hvalid⟩

/-- With a full journal the rollback of an applied block is refused. -/
theorem full_journal_refuses_rollback : ∃ store accepted : Store, store.Reachable sampleHashing ∧
      store.AcceptsBlocks sampleHashing [quietBlock] accepted ∧
      accepted.chain.tip ≠ store.chain.tip ∧
      NoRepeatedTxid accepted.chain.blocks ∧
      accepted.rollbackTo sampleHashing store.chain.tip 0 = .error .eventSequenceOverflow := by
  obtain ⟨store, hreachable, hchain, hsequence, hstatus⟩ :=
    exists_reachable_sequence (2 ^ 64 - 1) (by norm_num)
  have happlies := applies_quietBlock hchain hstatus
  have hunique := noRepeatedTxid_quietBlock hchain
  obtain ⟨result, happly, -⟩ := id happlies
  refine ⟨store, _, hreachable, .cons happly (.nil _), ?_, hunique, ?_⟩
  · rw [hchain]
    exact show quietBlock.anchor ≠ sampleAnchor by decide
  · obtain ⟨orphaned, event, write, -, hrollback⟩ := happlies.rollbackTo_eq hreachable hunique 0
    have hfull : checkedAdd 64 store.journal.sequence 1 = none := by
      rw [hsequence]
      decide
    rw [hrollback]
    simp only [Store.commitBlock, Store.startBlock, EventJournal.appendEvent, hfull, okOr]
    rfl

end DeadcatNode
