import DeadcatNode.NodeStoreLateWrites

/-!
# Invariants of the index

The indexed branch is contiguous from the activation checkpoint to the tip, the
retained undo rows are those of the last blocks, and every transaction, output,
history and hint row belongs to a block of the branch and is entered in the undo
row of its height, if that is retained.  All of this holds for arbitrary
deltas; nothing is assumed about where they come from.
-/

namespace DeadcatNode

open Checked

variable {delta : BlockDelta}

/-! ## How a write changes the undo rows -/

structure UndoBlock.Extends (undo next : UndoBlock) : Prop where
  previousTip : next.previousTip = undo.previousTip
  contractChanges : undo.contractChanges <+: next.contractChanges
  transactionPositions : undo.transactionPositions ⊆ next.transactionPositions
  outputOutpoints : undo.outputOutpoints ⊆ next.outputOutpoints
  historyKeys : undo.historyKeys ⊆ next.historyKeys
  recoveryLocations : undo.recoveryLocations ⊆ next.recoveryLocations

theorem UndoBlock.Extends.refl (undo : UndoBlock) : undo.Extends undo :=
  ⟨rfl, List.prefix_rfl, fun _ h => h, fun _ h => h, fun _ h => h, fun _ h => h⟩

/-- The rows of `after` are those of `before`, each possibly extended. -/
def UndoGrows (before after : Table ℕ UndoBlock) : Prop :=
  ∀ height : ℕ, (before[height]? = none ∧ after[height]? = none) ∨
    ∃ undo next : UndoBlock, before[height]? = some undo ∧ after[height]? = some next ∧
      undo.Extends next

theorem UndoGrows.refl (undoBlocks : Table ℕ UndoBlock) : UndoGrows undoBlocks undoBlocks := by
  intro height
  cases hrow : undoBlocks[height]? with
  | none => exact .inl ⟨rfl, rfl⟩
  | some undo => exact .inr ⟨undo, undo, rfl, rfl, .refl undo⟩

theorem undoGrows_modifyUndo (undoBlocks : Table ℕ UndoBlock) (height : ℕ)
    {change : UndoBlock → UndoBlock} (hchange : ∀ undo : UndoBlock, undo.Extends (change undo)) :
    UndoGrows undoBlocks (modifyUndo undoBlocks height change) := by
  intro a
  rw [row_modifyUndo]
  cases hrow : undoBlocks[a]? with
  | none => exact .inl ⟨rfl, by simp⟩
  | some undo =>
    refine .inr ⟨undo, if height = a then change undo else undo, rfl, ?_, ?_⟩
    · split <;> rfl
    · split
      · exact hchange undo
      · exact .refl undo

theorem UndoBlock.Extends.trans {first second third : UndoBlock}
    (h : first.Extends second) (h' : second.Extends third) : first.Extends third :=
  ⟨h'.previousTip.trans h.previousTip, h.contractChanges.trans h'.contractChanges,
    List.Subset.trans h.transactionPositions h'.transactionPositions,
    List.Subset.trans h.outputOutpoints h'.outputOutpoints,
    List.Subset.trans h.historyKeys h'.historyKeys,
    List.Subset.trans h.recoveryLocations h'.recoveryLocations⟩

theorem UndoGrows.trans {first second third : Table ℕ UndoBlock}
    (h : UndoGrows first second) (h' : UndoGrows second third) : UndoGrows first third := by
  intro height
  rcases h height with ⟨hfirst, hsecond⟩ | ⟨u, v, hfirst, hsecond, hext⟩
  · rcases h' height with ⟨-, hthird⟩ | ⟨u', v', hsecond', -, -⟩
    · exact .inl ⟨hfirst, hthird⟩
    · rw [hsecond] at hsecond'
      cases hsecond'
  · rcases h' height with ⟨hsecond', -⟩ | ⟨u', v', hsecond', hthird, hext'⟩
    · rw [hsecond] at hsecond'
      cases hsecond'
    · rw [hsecond] at hsecond'
      cases hsecond'
      exact .inr ⟨u, v', hfirst, hthird, hext.trans hext'⟩

variable {undo : UndoBlock}

namespace Index

variable {hashing : Hashing} {activation height : ℕ} {scope : Scope} {index next : Index}
  (hwrite : Write hashing activation height scope index next)

include hwrite in
theorem Write.chain_kept :
    next.chain.blocks = index.chain.blocks ∧
      next.chain.tip = index.chain.tip := by
  cases hwrite <;> exact ⟨rfl, rfl⟩

include hwrite in
theorem Write.undoGrows : UndoGrows index.undoBlocks next.undoBlocks := by
  have happend : ∀ (changes : List ContractUndo) (journalled : Bool)
      (change : ContractUndo), changes <+: if journalled then changes ++ [change] else changes := by
    intro changes journalled change
    split
    · exact List.prefix_append _ _
    · exact List.prefix_rfl
  cases hwrite with
  | putTransaction =>
    refine undoGrows_modifyUndo _ _ fun undo => { UndoBlock.Extends.refl undo
      with transactionPositions := ?_, outputOutpoints := ?_ }
    · exact List.subset_append_left _ _
    · exact List.subset_append_left _ _
  | setAffected | setHint => exact .refl _
  | createContract =>
    exact undoGrows_modifyUndo _ _ fun undo =>
      { UndoBlock.Extends.refl undo with
        contractChanges := List.prefix_append _ _ }
  | applyTransition =>
    refine (undoGrows_modifyUndo _ _ fun undo => ?_).trans (undoGrows_modifyUndo _ _ fun undo => ?_)
    · exact { UndoBlock.Extends.refl undo with
        contractChanges := happend _ true _ }
    · exact { UndoBlock.Extends.refl undo with
        historyKeys := List.subset_append_left _ _ }
  | advance =>
    exact undoGrows_modifyUndo _ _ fun undo =>
      { UndoBlock.Extends.refl undo with
        contractChanges := happend _ _ _ }
  | putHint =>
    exact undoGrows_modifyUndo _ _ fun undo =>
      { UndoBlock.Extends.refl undo with
        recoveryLocations := List.subset_append_left _ _ }
  | register =>
    refine (undoGrows_modifyUndo _ _ fun undo => ?_).trans (undoGrows_modifyUndo _ _ fun undo => ?_)
    · exact { UndoBlock.Extends.refl undo with
        contractChanges := List.prefix_append _ _ }
    · exact { UndoBlock.Extends.refl undo with }
  | journalCursors =>
    exact undoGrows_modifyUndo _ _ fun undo => { UndoBlock.Extends.refl undo with }

/-! ## The branch -/

/-- The branch is contiguous above the checkpoint and the undo rows are those
of its last blocks. -/
structure Linked (activation : ℕ) (index : Index) : Prop where
  above : activation ≤ index.chain.tip.height
  block : ∀ (h : ℕ) (block : StoredBlock), index.chain.blocks[h]? = some block →
      activation < h ∧ h ≤ index.chain.tip.height ∧ block.orderedTxids.Nodup
  filled : ∀ h : ℕ, activation < h → h ≤ index.chain.tip.height → (index.chain.blocks[h]?).isSome
  undo : ∀ (h : ℕ) (undo : UndoBlock), index.undoBlocks[h]? = some undo →
    activation < h ∧ h ≤ index.chain.tip.height ∧ undo.previousTip.height + 1 = h
  segment : ∀ h h' : ℕ, (index.undoBlocks[h]?).isSome → h ≤ h' →
    h' ≤ index.chain.tip.height → (index.undoBlocks[h']?).isSome

theorem linked_atAnchor (anchor : ChainAnchor) : Linked anchor.height ⟨.atAnchor anchor, ∅⟩ := by
  constructor <;> simp [ChainTables.atAnchor]

theorem UndoGrows.isSome_iff {before after : Table ℕ UndoBlock}
    (hgrows : UndoGrows before after) (h : ℕ) : (after[h]?).isSome ↔ (before[h]?).isSome := by
  rcases hgrows h with ⟨hbefore, hafter⟩ | ⟨u, v, hbefore, hafter, -⟩ <;> simp [hbefore, hafter]

theorem UndoGrows.exists_before {before after : Table ℕ UndoBlock}
    (hgrows : UndoGrows before after) {h : ℕ} {next : UndoBlock} (hafter : after[h]? = some next) :
    ∃ undo, before[h]? = some undo ∧ undo.Extends next := by
  rcases hgrows h with ⟨-, hnone⟩ | ⟨u, v, hbefore, hsome, hext⟩
  · rw [hafter] at hnone
    cases hnone
  · rw [hafter] at hsome
    cases hsome
    exact ⟨u, hbefore, hext⟩

include hwrite in
theorem Linked.write (hlinked : index.Linked activation) :
    next.Linked activation := by
  obtain ⟨hblocks, htip⟩ := hwrite.chain_kept
  have hgrows := hwrite.undoGrows
  refine ⟨?_, ?_, ?_, ?_, ?_⟩
  · rw [htip]
    exact hlinked.above
  · rw [hblocks, htip]
    exact hlinked.block
  · rw [hblocks, htip]
    exact hlinked.filled
  · intro h undo hundo
    obtain ⟨before, hbefore, hext⟩ := UndoGrows.exists_before hgrows hundo
    rw [htip, hext.previousTip]
    exact hlinked.undo h before hbefore
  · intro h h' hsome hle htop
    rw [UndoGrows.isSome_iff hgrows] at hsome ⊢
    rw [htip] at htop
    exact hlinked.segment h h' hsome hle htop

theorem row_pruneUndo (undoBlocks : Table ℕ UndoBlock) (newHeight h : ℕ) :
    (pruneUndo undoBlocks newHeight)[h]? =
      if newHeight - 1 ≤ h then undoBlocks[h]? else none := by
  rw [pruneUndo, Table.row_retainKeys]
  simp [undoRetentionBlocks]

theorem Linked.openBlock (hlinked : index.Linked activation)
    (hheight : delta.anchor.height = index.chain.tip.height + 1)
    (hnodup : delta.orderedTxids.Nodup) : (index.openBlock hashing delta).Linked activation := by
  have habove := hlinked.above
  refine ⟨?_, ?_, ?_, ?_, ?_⟩
  · simp only [Index.openBlock]
    omega
  · intro h block hblock
    simp only [Index.openBlock, Table.row_insert] at hblock ⊢
    split at hblock
    · next hh =>
      cases hblock
      exact ⟨by omega, by omega, hnodup⟩
    · obtain ⟨hlow, hhigh, htxids⟩ := hlinked.block h block hblock
      exact ⟨hlow, by omega, htxids⟩
  · intro h hlow hhigh
    simp only [Index.openBlock, Table.row_insert] at hhigh ⊢
    split
    · rfl
    · exact hlinked.filled h hlow (by omega)
  · intro h undo hundo
    simp only [Index.openBlock, Table.row_insert, row_pruneUndo] at hundo ⊢
    split at hundo
    · next hh =>
      cases hundo
      exact ⟨by omega, by omega, hheight.symm.trans hh⟩
    · split at hundo
      · obtain ⟨hlow, hhigh, hprevious⟩ := hlinked.undo h undo hundo
        exact ⟨hlow, by omega, hprevious⟩
      · cases hundo
  · intro h h' hsome hle htop
    simp only [Index.openBlock, Table.row_insert, row_pruneUndo] at hsome htop ⊢
    by_cases hnew : delta.anchor.height = h'
    · simp [hnew]
    · have hne : delta.anchor.height ≠ h := by omega
      simp only [hne, hnew, if_false] at hsome ⊢
      have hkept : delta.anchor.height - 1 ≤ h := by
        by_contra hlow
        simp [hlow] at hsome
      rw [if_pos (by omega)]
      rw [if_pos hkept] at hsome
      exact hlinked.segment h h' hsome hle (by omega)

/-! ## Taking the top block back -/

/-- The tip block is undone with its undo row. -/
structure Unwinds (hashing : Hashing) (index next : Index)
    (undo : UndoBlock) (tables : ContractTables) : Prop where
  retained : index.undoBlocks[index.chain.tip.height]? = some undo
  replayed : ∃ affected affected', undo.contractChanges.reverse.foldlM (undoContractChange hashing)
      (index.chain.contractTables, affected) = .ok (tables, affected')
  next : next = {
    chain := { index.chain.undoRows undo with
      contractTables := tables
      blocks := index.chain.blocks.erase index.chain.tip.height
      tip := undo.previousTip }
    undoBlocks := index.undoBlocks.erase index.chain.tip.height }

theorem Linked.unwind {tables : ContractTables}
    (hlinked : index.Linked activation) (hunwinds : index.Unwinds hashing next undo tables) :
    next.Linked activation ∧
      next.chain.tip.height + 1 = index.chain.tip.height := by
  obtain ⟨hretained, -, rfl⟩ := hunwinds
  obtain ⟨hlow, -, hprevious⟩ := hlinked.undo _ _ hretained
  refine ⟨⟨?_, ?_, ?_, ?_, ?_⟩, hprevious⟩
  · dsimp only
    omega
  · intro h block hblock
    simp only [Table.row_erase] at hblock
    split at hblock
    · cases hblock
    · obtain ⟨hlow', hhigh', htxids⟩ := hlinked.block h block hblock
      exact ⟨hlow', by dsimp only; omega, htxids⟩
  · intro h hlow' hhigh'
    dsimp only at hhigh'
    simp only [Table.row_erase]
    rw [if_neg (by omega)]
    exact hlinked.filled h hlow' (by omega)
  · intro h row hrow
    simp only [Table.row_erase] at hrow
    split at hrow
    · cases hrow
    · obtain ⟨hlow', hhigh', hprevious'⟩ := hlinked.undo h row hrow
      exact ⟨hlow', by dsimp only; omega, hprevious'⟩
  · intro h h' hsome hle htop
    simp only [Table.row_erase] at hsome htop ⊢
    rw [if_neg (by omega)]
    split at hsome
    · cases hsome
    · exact hlinked.segment h h' hsome hle (by omega)

end Index

/-! ## The rows -/

/-- An undo row mentions only rows of its own height and of its own block. -/
structure UndoBlock.Local (activation height : ℕ) (blocks : Table ℕ StoredBlock)
    (undo : UndoBlock) : Prop where
  transactions : ∀ position ∈ undo.transactionPositions, position.blockHeight = height
  outputs : ∀ outpoint ∈ undo.outputOutpoints,
    ∃ block, blocks[height]? = some block ∧ outpoint.txid ∈ block.orderedTxids
  history : ∀ key ∈ undo.historyKeys, key.2.blockHeight = height
  changes : ∀ change ∈ undo.contractChanges, change.Keyed
  progress : ∀ change ∈ undo.backfillProgressChanges, ∀ before,
    change.before = some before → before.contractId = change.contractId ∧
      activation < before.nextPosition.blockHeight

theorem UndoBlock.Local.contractChange {activation height : ℕ}
    {blocks : Table ℕ StoredBlock} {change : ContractUndo}
    (hlocal : undo.Local activation height blocks) (hchange : change.Keyed) :
    UndoBlock.Local activation height blocks { undo with
      contractChanges := undo.contractChanges ++ [change] } := by
  refine { hlocal with changes := ?_ }
  intro other hother
  rcases List.mem_append.mp hother with hold | hnew
  · exact hlocal.changes other hold
  · rw [List.mem_singleton] at hnew
    exact hnew ▸ hchange

namespace Index

variable {hashing : Hashing} {activation height : ℕ} {scope : Scope} {index next : Index}
  (hwrite : Write hashing activation height scope index next)
  {row : StoredTransaction}

/-- Every undo row is local to its height. -/
def JournalLocal (activation : ℕ) (blocks : Table ℕ StoredBlock)
    (undoBlocks : Table ℕ UndoBlock) : Prop :=
  ∀ (h : ℕ) (undo : UndoBlock), undoBlocks[h]? = some undo → undo.Local activation h blocks

/-- Every row of a table belongs to a block of the branch and is entered in the
undo row of its height, if that is retained. -/
def RowsPlaced {K V : Type} [LinearOrder K] (index : Index) (rows : Table K V)
    (heightOf : K → ℕ) (entered : UndoBlock → K → Prop) : Prop :=
  ∀ (k : K) (v : V), rows[k]? = some v → (index.chain.blocks[heightOf k]?).isSome ∧
      ∀ undo, index.undoBlocks[heightOf k]? = some undo → entered undo k

def historyHeight (key : HistoryKey) : ℕ := (ofLex key).2.blockHeight

def historyEntered (undo : UndoBlock) (key : HistoryKey) : Prop :=
  ofLex key ∈ undo.historyKeys

def hintHeight (location : RecoveryHintLocation) : ℕ :=
  location.position.blockHeight

def hintEntered (undo : UndoBlock) (location : RecoveryHintLocation) : Prop :=
  location ∈ undo.recoveryLocations

/-- Contract indexes are exact, cursors are well placed, and every row of the
other tables belongs to the branch and is journalled. -/
structure Placed (hashing : Hashing) (activation : ℕ) (index : Index) : Prop where
  exact : index.chain.contractTables.Exact hashing
  progress : BlockWrite.ProgressPlaced activation index.chain.backfillProgress
  transactions : ∀ (position : ChainPosition) (row : StoredTransaction),
    index.chain.transactions[position]? = some row → row.position = position ∧
      (∃ block, index.chain.blocks[position.blockHeight]? = some block ∧ block.Lists row) ∧
      ∀ undo, index.undoBlocks[position.blockHeight]? = some undo →
        position ∈ undo.transactionPositions
  outputs : ∀ (outpoint : OutPoint) (ref : StoredOutputRef),
    index.chain.outputs[outpoint]? = some ref →
      (∃ row, index.chain.transactions[ref.position]? = some row ∧ row.txid = outpoint.txid) ∧
      ∀ undo, index.undoBlocks[ref.position.blockHeight]? = some undo →
        outpoint ∈ undo.outputOutpoints
  history : index.RowsPlaced index.chain.contractHistory historyHeight historyEntered
  hints : index.RowsPlaced index.chain.recoveryHints hintHeight hintEntered
  journal : JournalLocal activation index.chain.blocks index.undoBlocks

theorem placed_atAnchor (hashing : Hashing) (activation : ℕ) (anchor : ChainAnchor) :
    Placed hashing activation ⟨.atAnchor anchor, ∅⟩ := by
  constructor <;> simp [ChainTables.atAnchor, ContractTables.exact_empty,
    BlockWrite.ProgressPlaced, JournalLocal, RowsPlaced]

theorem mem_txids_of_mem_allOutpoints
    {block : StoredBlock} {outpoint : OutPoint} (hlists : block.Lists row)
    (hmem : outpoint ∈ row.allOutpoints) : outpoint.txid ∈ block.orderedTxids := by
  obtain ⟨vout, -, rfl⟩ := List.mem_map.mp hmem
  exact List.mem_of_getElem? hlists.txid

theorem row_outputs (outputs : Table OutPoint StoredOutputRef)
    (row : StoredTransaction) (outpoint : OutPoint) (ref : StoredOutputRef) :
    (outputs.insertAll (row.allOutpoints.map fun outpoint =>
        (outpoint, (⟨row.position, outpoint⟩ : StoredOutputRef))))[outpoint]? =
        some ref ↔
      outpoint ∈ row.allOutpoints ∧ ref = ⟨row.position, outpoint⟩ ∨
        outpoint ∉ row.allOutpoints ∧ outputs[outpoint]? = some ref := by
  rw [Table.row_insertAll_iff]
  · simp only [List.mem_map, List.map_map, Prod.mk.injEq]
    constructor
    · rintro (⟨o, ho, rfl, rfl⟩ | ⟨habsent, hrow⟩)
      · exact .inl ⟨ho, rfl⟩
      · refine .inr ⟨fun hmem => habsent ⟨outpoint, hmem, rfl⟩, hrow⟩
    · rintro (⟨hmem, rfl⟩ | ⟨habsent, hrow⟩)
      · exact .inl ⟨outpoint, hmem, rfl, rfl⟩
      · refine .inr ⟨?_, hrow⟩
        rintro ⟨o, ho, rfl⟩
        exact habsent ho
  · intro r hr r' hr' hkey
    obtain ⟨o, -, rfl⟩ := List.mem_map.mp hr
    obtain ⟨o', -, rfl⟩ := List.mem_map.mp hr'
    dsimp only at hkey
    rw [hkey]

include hwrite in
theorem Write.exact (hexact : index.chain.contractTables.Exact hashing) :
    next.chain.contractTables.Exact hashing := by
  cases hwrite with
  | createContract _ hinsertable => exact hexact.putContract hinsertable
  | applyTransition _ _ hbefore _ hinsertable | advance _ hbefore _ hinsertable =>
    exact (hexact.removeContract hbefore).putContract hinsertable
  | register _ hinsertable => exact hexact.putContract hinsertable
  | _ => exact hexact

theorem progressPlaced_insert {progress : Table ContractId BackfillProgress}
    (hprogress : BlockWrite.ProgressPlaced activation progress) {item : BackfillProgress}
    (habove : activation < item.nextPosition.blockHeight) :
    BlockWrite.ProgressPlaced activation (progress.insert item.contractId item) := by
  intro c other hother
  rw [Table.row_insert] at hother
  split at hother
  · next hid =>
    cases hother
    exact ⟨hid, habove⟩
  · exact hprogress c other hother

include hwrite in
theorem Write.progress
    (hprogress : BlockWrite.ProgressPlaced activation index.chain.backfillProgress) :
    BlockWrite.ProgressPlaced activation next.chain.backfillProgress := by
  cases hwrite with
  | advance _ _ _ _ _ _ habove => exact progressPlaced_insert hprogress habove
  | register hheight _ _ _ hstarts habove =>
    refine progressPlaced_insert hprogress ?_
    rw [hstarts.at_creation, hheight]
    exact habove
  | _ => exact hprogress

theorem JournalLocal.modifyUndo {blocks : Table ℕ StoredBlock} {undoBlocks : Table ℕ UndoBlock}
    (hlocal : JournalLocal activation blocks undoBlocks) {change : UndoBlock → UndoBlock}
    (hchange : ∀ undo : UndoBlock, undo.Local activation height blocks →
      (change undo).Local activation height blocks) :
    JournalLocal activation blocks (DeadcatNode.modifyUndo undoBlocks height change) := by
  intro h undo hundo
  rw [row_modifyUndo] at hundo
  split at hundo
  · next hh =>
    subst hh
    obtain ⟨before, hbefore, rfl⟩ := Option.map_eq_some_iff.mp hundo
    exact hchange before (hlocal _ before hbefore)
  · exact hlocal h undo hundo

include hwrite in
theorem Write.journal (hlocal : JournalLocal activation index.chain.blocks index.undoBlocks) :
    JournalLocal activation next.chain.blocks next.undoBlocks := by
  cases hwrite with
  | @putTransaction row block hheight hblock hlists _ =>
    subst hheight
    refine JournalLocal.modifyUndo hlocal ?_
    intro undo hundo
    refine { hundo with transactions := ?_, outputs := ?_ }
    · intro position hposition
      rcases List.mem_append.mp hposition with hold | hnew
      · exact hundo.transactions position hold
      · rw [List.mem_singleton] at hnew
        rw [hnew]
    · intro outpoint houtpoint
      rcases List.mem_append.mp houtpoint with hold | hnew
      · exact hundo.outputs outpoint hold
      · exact ⟨block, hblock, mem_txids_of_mem_allOutpoints hlists hnew⟩
  | createContract =>
    refine JournalLocal.modifyUndo hlocal ?_
    intro undo hundo
    refine hundo.contractChange ?_
    intro image himage
    cases himage
  | @applyTransition before after entry row hheight =>
    have hreplaced : JournalLocal activation index.chain.blocks
        (modifyUndo index.undoBlocks height fun undo => { undo with
          contractChanges := undo.contractChanges ++ [⟨before.contractId, some before⟩] }) := by
      refine JournalLocal.modifyUndo hlocal ?_
      intro undo hundo
      refine hundo.contractChange ?_
      intro image himage
      cases himage
      rfl
    subst hheight
    refine JournalLocal.modifyUndo hreplaced ?_
    intro undo hundo
    refine { hundo with history := ?_ }
    intro key hkey
    rcases List.mem_append.mp hkey with hold | hnew
    · exact hundo.history key hold
    · rw [List.mem_singleton] at hnew
      rw [hnew]
  | @advance before syncState journalled =>
    refine JournalLocal.modifyUndo hlocal ?_
    intro undo hundo
    cases journalled with
    | false => exact hundo
    | true =>
      refine hundo.contractChange ?_
      intro image himage
      cases himage
      rfl
  | putHint hheight =>
    subst hheight
    exact JournalLocal.modifyUndo hlocal fun undo hundo => { hundo with }
  | @register record =>
    have hcreated : JournalLocal activation index.chain.blocks
        (modifyUndo index.undoBlocks height fun undo => { undo with
          contractChanges := undo.contractChanges ++ [⟨record.contractId, none⟩] }) := by
      refine JournalLocal.modifyUndo hlocal ?_
      intro undo hundo
      refine hundo.contractChange ?_
      intro image himage
      cases himage
    refine JournalLocal.modifyUndo hcreated ?_
    intro undo hundo
    refine { hundo with progress := ?_ }
    intro change hchange before hbefore
    rcases List.mem_append.mp hchange with hold | hnew
    · exact hundo.progress change hold before hbefore
    · rw [List.mem_singleton] at hnew
      subst hnew
      cases hbefore
  | journalCursors hitems habove =>
    refine JournalLocal.modifyUndo hlocal ?_
    intro undo hundo
    refine { hundo with progress := ?_ }
    intro change hchange before hbefore
    rcases List.mem_append.mp hchange with hold | hnew
    · exact hundo.progress change hold before hbefore
    · obtain ⟨item, hitem, rfl⟩ := List.mem_map.mp hnew
      cases hbefore
      refine ⟨rfl, ?_⟩
      rw [(hitems _ hitem).2.1]
      exact habove
  | _ => exact hlocal

section

variable {K V : Type} [LinearOrder K] {rows : Table K V} {heightOf : K → ℕ}
  {entered : UndoBlock → K → Prop}

include hwrite in
theorem RowsPlaced.write (hplaced : index.RowsPlaced rows heightOf entered)
    (hentered : ∀ {undo undo' : UndoBlock} {k : K}, undo.Extends undo' →
      entered undo k → entered undo' k) :
    next.RowsPlaced rows heightOf entered := by
  intro k v hrow
  obtain ⟨hblock, hjournal⟩ := hplaced k v hrow
  rw [hwrite.chain_kept.1]
  refine ⟨hblock, ?_⟩
  intro undo hundo
  obtain ⟨before, hbefore, hext⟩ := UndoGrows.exists_before hwrite.undoGrows hundo
  exact hentered hext (hjournal before hbefore)

theorem RowsPlaced.insert (hplaced : index.RowsPlaced rows heightOf entered)
    {k : K} (v : V) (hblock : (index.chain.blocks[heightOf k]?).isSome)
    (hentered : ∀ undo, index.undoBlocks[heightOf k]? = some undo → entered undo k) :
    index.RowsPlaced (rows.insert k v) heightOf entered := by
  intro k' v' hrow
  rw [Table.row_insert] at hrow
  split at hrow
  · next hsame =>
    subst hsame
    exact ⟨hblock, hentered⟩
  · exact hplaced k' v' hrow

end

theorem historyEntered_mono {undo' : UndoBlock} {key : HistoryKey}
    (hext : undo.Extends undo') (hentered : historyEntered undo key) : historyEntered undo' key :=
  hext.historyKeys hentered

theorem hintEntered_mono {undo' : UndoBlock}
    {location : RecoveryHintLocation} (hext : undo.Extends undo')
    (hentered : hintEntered undo location) : hintEntered undo' location :=
  hext.recoveryLocations hentered

variable (hplaced : index.Placed hashing activation)

include hwrite hplaced in
theorem Placed.writeHistory :
    next.RowsPlaced next.chain.contractHistory historyHeight historyEntered := by
  have hkept := hplaced.history.write hwrite historyEntered_mono
  cases hwrite with
  | @applyTransition before after entry row hheight _ _ _ _ hblock =>
    refine hkept.insert _ ?_ ?_
    · change (index.chain.blocks[entry.position.blockHeight]?).isSome
      rw [hheight]
      exact hblock
    · intro undo hundo
      simp only [Index.putHistory, Index.replaceContract, historyHeight,
        historyKey, ofLex_toLex, row_modifyUndo, if_true, Option.map_eq_some_iff] at hundo
      obtain ⟨before', -, rfl⟩ := hundo
      simp [historyEntered, historyKey]
  | _ => exact hkept

include hwrite hplaced in
theorem Placed.writeHints : next.RowsPlaced next.chain.recoveryHints hintHeight hintEntered := by
  have hkept := hplaced.hints.write hwrite hintEntered_mono
  cases hwrite with
  | @putHint hint hheight hblock =>
    refine hkept.insert _ ?_ ?_
    · change (index.chain.blocks[hint.location.position.blockHeight]?).isSome
      rw [hheight]
      exact hblock
    · intro undo hundo
      simp only [Index.putHint, hintHeight, row_modifyUndo, if_true,
        Option.map_eq_some_iff] at hundo
      obtain ⟨before, -, rfl⟩ := hundo
      simp [hintEntered]
  | setHint hold =>
    obtain ⟨hblock, hentered⟩ := hplaced.hints _ _ hold
    exact hkept.insert _ hblock hentered
  | _ => exact hkept

include hplaced in
theorem Placed.journalled_mono
    (hgrows : UndoGrows index.undoBlocks next.undoBlocks) {position : ChainPosition}
    (hrow : index.chain.transactions[position]? = some row)
    (hundo : next.undoBlocks[position.blockHeight]? = some undo) :
    position ∈ undo.transactionPositions := by
  obtain ⟨before, hbefore, hext⟩ := UndoGrows.exists_before hgrows hundo
  exact hext.transactionPositions ((hplaced.transactions position row hrow).2.2 before hbefore)

include hwrite hplaced in
theorem Placed.writeTransactions (position : ChainPosition) (row : StoredTransaction)
    (hrow : next.chain.transactions[position]? = some row) :
    row.position = position ∧
      (∃ block, next.chain.blocks[position.blockHeight]? = some block ∧ block.Lists row) ∧
      ∀ undo, next.undoBlocks[position.blockHeight]? = some undo →
        position ∈ undo.transactionPositions := by
  have hgrows := hwrite.undoGrows
  have hold : index.chain.transactions[position]? = some row → row.position = position ∧
      (∃ block, next.chain.blocks[position.blockHeight]? = some block ∧ block.Lists row) ∧
      ∀ undo, next.undoBlocks[position.blockHeight]? = some undo →
        position ∈ undo.transactionPositions := by
    intro hrow
    obtain ⟨hposition, hlisted, -⟩ := hplaced.transactions position row hrow
    rw [hwrite.chain_kept.1]
    exact ⟨hposition, hlisted, fun undo hundo => hplaced.journalled_mono hgrows hrow hundo⟩
  cases hwrite with
  | @putTransaction new block hheight hblock hlists _ =>
    simp only [Index.putTransaction, Table.row_insert] at hrow
    split at hrow
    · next hsame =>
      cases hrow
      subst hsame hheight
      refine ⟨rfl, ⟨block, hblock, hlists⟩, ?_⟩
      intro undo hundo
      simp only [Index.putTransaction, row_modifyUndo, if_true, Option.map_eq_some_iff] at hundo
      obtain ⟨before, -, rfl⟩ := hundo
      simp
    · exact hold hrow
  | @setAffected stored affected hstored =>
    simp only [Index.setAffected, Table.row_insert] at hrow
    split at hrow
    · next hsame =>
      cases hrow
      subst hsame
      obtain ⟨-, ⟨block, hblock, hlists⟩, hjournal⟩ := hplaced.transactions _ _ hstored
      exact ⟨rfl, ⟨block, hblock, ⟨hlists.txid, hlists.hash⟩⟩, hjournal⟩
    · exact hold hrow
  | _ => exact hold hrow

include hwrite hplaced in
theorem Placed.writeOutputs (outpoint : OutPoint) (ref : StoredOutputRef)
    (href : next.chain.outputs[outpoint]? = some ref) :
    (∃ row, next.chain.transactions[ref.position]? = some row ∧ row.txid = outpoint.txid) ∧
      ∀ undo, next.undoBlocks[ref.position.blockHeight]? = some undo →
        outpoint ∈ undo.outputOutpoints := by
  have hgrows := hwrite.undoGrows
  have hjournal : index.chain.outputs[outpoint]? = some ref → ∀ undo,
      next.undoBlocks[ref.position.blockHeight]? = some undo → outpoint ∈ undo.outputOutpoints := by
    intro hrow undo hundo
    obtain ⟨before, hbefore, hext⟩ := UndoGrows.exists_before hgrows hundo
    exact hext.outputOutpoints ((hplaced.outputs outpoint ref hrow).2 before hbefore)
  cases hwrite with
  | @putTransaction new block hheight hblock hlists hfresh =>
    simp only [Index.putTransaction] at href
    rcases (row_outputs _ _ _ _).mp href with ⟨hmem, rfl⟩ | ⟨-, hrow⟩
    · constructor
      · refine ⟨new, by simp [Index.putTransaction], ?_⟩
        obtain ⟨vout, -, rfl⟩ := List.mem_map.mp hmem
        rfl
      · intro undo hundo
        simp only [Index.putTransaction, row_modifyUndo, if_true, Option.map_eq_some_iff] at hundo
        obtain ⟨before, -, rfl⟩ := hundo
        exact List.mem_append_right _ hmem
    · refine ⟨?_, hjournal hrow⟩
      obtain ⟨⟨row, hstored, htxid⟩, -⟩ := hplaced.outputs outpoint ref hrow
      refine ⟨row, ?_, htxid⟩
      have hne : new.position ≠ ref.position := by
        intro hsame
        rw [← hsame, hfresh] at hstored
        cases hstored
      simp only [Index.putTransaction, Table.row_insert, if_neg hne]
      exact hstored
  | @setAffected stored affected hstored =>
    refine ⟨?_, hjournal href⟩
    obtain ⟨⟨row, hrow, htxid⟩, -⟩ := hplaced.outputs outpoint ref href
    simp only [Index.setAffected, Table.row_insert]
    split
    · next hsame =>
      rw [← hsame, hstored] at hrow
      cases hrow
      exact ⟨_, rfl, htxid⟩
    · exact ⟨row, hrow, htxid⟩
  | _ => exact ⟨(hplaced.outputs outpoint ref href).1, hjournal href⟩

include hwrite hplaced in
theorem Placed.write :
    next.Placed hashing activation where
  exact := hwrite.exact hplaced.exact
  progress := hwrite.progress hplaced.progress
  transactions := hplaced.writeTransactions hwrite
  outputs := hplaced.writeOutputs hwrite
  history := hplaced.writeHistory hwrite
  hints := hplaced.writeHints hwrite
  journal := hwrite.journal hplaced.journal

/-! ## Opening and unwinding a block -/

include hplaced in
theorem Placed.height_le_tip (hlinked : index.Linked activation) {position : ChainPosition}
    (hrow : index.chain.transactions[position]? = some row) :
    position.blockHeight ≤ index.chain.tip.height := by
  obtain ⟨-, ⟨block, hblock, -⟩, -⟩ := hplaced.transactions position row hrow
  exact (hlinked.block _ block hblock).2.1

theorem undo_openBlock {h : ℕ}
    (hundo : (index.openBlock hashing delta).undoBlocks[h]? = some undo) :
    delta.anchor.height = h ∧ undo = { previousTip := index.chain.tip } ∨
      delta.anchor.height ≠ h ∧ index.undoBlocks[h]? = some undo := by
  simp only [Index.openBlock, Table.row_insert, row_pruneUndo] at hundo
  split at hundo
  · next hsame =>
    cases hundo
    exact .inl ⟨hsame, rfl⟩
  · next hne =>
    split at hundo
    · exact .inr ⟨hne, hundo⟩
    · cases hundo

theorem RowsPlaced.height_le_tip {K V : Type} [LinearOrder K]
    {rows : Table K V} {heightOf : K → ℕ} {entered : UndoBlock → K → Prop}
    (hplaced : index.RowsPlaced rows heightOf entered)
    (hlinked : index.Linked activation) {k : K} {v : V}
    (hrow : rows[k]? = some v) : heightOf k ≤ index.chain.tip.height := by
  obtain ⟨block, hblock⟩ := Option.isSome_iff_exists.mp (hplaced k v hrow).1
  exact (hlinked.block _ block hblock).2.1

theorem RowsPlaced.openBlock {K V : Type} [LinearOrder K]
    {rows : Table K V} {heightOf : K → ℕ} {entered : UndoBlock → K → Prop}
    (hplaced : index.RowsPlaced rows heightOf entered) (hlinked : index.Linked activation)
    (hheight : delta.anchor.height = index.chain.tip.height + 1) :
    (index.openBlock hashing delta).RowsPlaced rows heightOf entered := by
  intro k v hrow
  have hle := hplaced.height_le_tip hlinked hrow
  obtain ⟨hblock, hjournal⟩ := hplaced k v hrow
  constructor
  · simp only [Index.openBlock, Table.row_insert]
    rw [if_neg (by omega)]
    exact hblock
  · intro undo hundo
    rcases undo_openBlock hundo with ⟨hsame, -⟩ | ⟨-, hold⟩
    · omega
    · exact hjournal undo hold

include hplaced in
theorem Placed.openBlock (hlinked : index.Linked activation)
    (hheight : delta.anchor.height = index.chain.tip.height + 1) :
    (index.openBlock hashing delta).Placed hashing activation := by
  have hkept : ∀ (h : ℕ) (block : StoredBlock), index.chain.blocks[h]? = some block →
        (index.openBlock hashing delta).chain.blocks[h]? = some block := by
    intro h block hblock
    have hle := (hlinked.block h block hblock).2.1
    simp only [Index.openBlock, Table.row_insert]
    rw [if_neg (by omega)]
    exact hblock
  refine ⟨hplaced.exact, hplaced.progress, ?_, ?_,
    hplaced.history.openBlock hlinked hheight, hplaced.hints.openBlock hlinked hheight, ?_⟩
  · intro position row hrow
    obtain ⟨hposition, ⟨block, hblock, hlists⟩, hjournal⟩ := hplaced.transactions position row hrow
    have hle := hplaced.height_le_tip hlinked hrow
    refine ⟨hposition, ⟨block, hkept _ block hblock, hlists⟩, ?_⟩
    intro undo hundo
    rcases undo_openBlock hundo with ⟨hsame, -⟩ | ⟨-, hold⟩
    · omega
    · exact hjournal undo hold
  · intro outpoint ref href
    obtain ⟨⟨row, hrow, htxid⟩, hjournal⟩ := hplaced.outputs outpoint ref href
    have hle := hplaced.height_le_tip hlinked hrow
    refine ⟨⟨row, hrow, htxid⟩, ?_⟩
    intro undo hundo
    rcases undo_openBlock hundo with ⟨hsame, -⟩ | ⟨-, hold⟩
    · omega
    · exact hjournal undo hold
  · intro h undo hundo
    rcases undo_openBlock hundo with ⟨-, rfl⟩ | ⟨-, hold⟩
    · constructor <;> simp
    · have hlocal := hplaced.journal h undo hold
      refine { hlocal with outputs := ?_ }
      intro outpoint houtpoint
      obtain ⟨block, hblock, hmem⟩ := hlocal.outputs outpoint houtpoint
      exact ⟨block, hkept h block hblock, hmem⟩

theorem exact_undoContractChange {acc acc' : ContractTables × List ContractId}
    {change : ContractUndo} (hexact : acc.1.Exact hashing)
    (hundo : undoContractChange hashing acc change = .ok acc') : acc'.1.Exact hashing := by
  have hdropped : (dropCurrent hashing acc change.contractId).1.Exact
      hashing := by
    unfold dropCurrent
    split
    · next current hcurrent =>
      refine hexact.removeContract ?_
      rw [hexact.keyed _ _ hcurrent]
      exact hcurrent
    · exact hexact
  simp only [undoContractChange] at hundo
  split at hundo
  · simp only [bind_eq_ok, ContractTables.insertContract_eq_ok, pure_eq_ok] at hundo
    obtain ⟨_, ⟨hinsertable, rfl⟩, rfl⟩ := hundo
    exact hdropped.putContract hinsertable
  · simp only [pure_eq_ok] at hundo
    exact hundo ▸ hdropped

theorem progressPlaced_undo (changes : List BackfillProgressUndo)
    (hchanges : ∀ change ∈ changes, ∀ before, change.before = some before →
      before.contractId = change.contractId ∧ activation < before.nextPosition.blockHeight)
    {progress : Table ContractId BackfillProgress}
    (hprogress : BlockWrite.ProgressPlaced activation progress) :
    BlockWrite.ProgressPlaced activation (changes.foldl undoProgressChange progress) := by
  induction changes generalizing progress with
  | nil => exact hprogress
  | cons change rest ih =>
    refine ih (fun other hother => hchanges other (List.mem_cons_of_mem _ hother)) ?_
    intro c item hitem
    unfold undoProgressChange at hitem
    split at hitem
    · next before hbefore =>
      rw [Table.insert_erase_self, Table.row_insert] at hitem
      split at hitem
      · next hsame =>
        cases hitem
        subst hsame
        exact hchanges change List.mem_cons_self _ hbefore
      · exact hprogress c item hitem
    · rw [Table.row_erase] at hitem
      split at hitem
      · cases hitem
      · exact hprogress c item hitem

theorem RowsPlaced.unwind {K V : Type} [LinearOrder K]
    {rows : Table K V} {heightOf : K → ℕ} {entered : UndoBlock → K → Prop}
    {erased : List K} (hplaced : index.RowsPlaced rows heightOf entered)
    (hretained : index.undoBlocks[index.chain.tip.height]? = some undo)
    (herased : ∀ k, entered undo k → k ∈ erased)
    (hblocks : next.chain.blocks = index.chain.blocks.erase index.chain.tip.height)
    (hundo : next.undoBlocks = index.undoBlocks.erase index.chain.tip.height) :
    next.RowsPlaced (rows.eraseAll erased) heightOf entered := by
  intro k v hrow
  rw [Table.row_eraseAll] at hrow
  split at hrow
  · cases hrow
  · next hnot =>
    obtain ⟨hblock, hjournal⟩ := hplaced k v hrow
    have hne : index.chain.tip.height ≠ heightOf k := by
      intro hsame
      rw [hsame] at hretained
      exact hnot (herased k (hjournal undo hretained))
    rw [hblocks, hundo, Table.row_erase, Table.row_erase, if_neg hne, if_neg hne]
    exact ⟨hblock, hjournal⟩

include hplaced in
theorem Placed.unwind {tables : ContractTables}
    (hunwinds : index.Unwinds hashing next undo tables) :
    next.Placed hashing activation := by
  obtain ⟨hretained, ⟨affected, affected', hreplayed⟩, rfl⟩ := hunwinds
  have hlocal := hplaced.journal _ undo hretained
  have hkept : ∀ (position : ChainPosition) (row : StoredTransaction),
      index.chain.transactions[position]? = some row →
      position.blockHeight ≠ index.chain.tip.height →
      (index.chain.transactions.eraseAll undo.transactionPositions)[position]? = some row := by
    intro position row hrow hne
    rw [Table.row_eraseAll, if_neg]
    · exact hrow
    · intro hmem
      exact hne (hlocal.transactions position hmem)
  have hkeys : ∀ key, historyEntered undo key →
      key ∈ undo.historyKeys.map fun key => historyKey key.1 key.2 :=
    fun key hentered => List.mem_map.mpr ⟨ofLex key, hentered, rfl⟩
  refine ⟨?_, ?_, ?_, ?_, hplaced.history.unwind hretained hkeys rfl rfl,
    hplaced.hints.unwind hretained (fun _ hentered => hentered) rfl rfl, ?_⟩
  · exact foldlM_invariant (fun acc : ContractTables × List ContractId => acc.1.Exact hashing)
      (fun _ _ _ hs hstep => exact_undoContractChange hs hstep) _ hplaced.exact hreplayed
  · refine progressPlaced_undo _ ?_ hplaced.progress
    intro change hchange
    exact hlocal.progress change (List.mem_reverse.mp hchange)
  · intro position row hrow
    simp only [ChainTables.undoRows, Table.row_eraseAll] at hrow
    split at hrow
    · cases hrow
    · next hnot =>
      obtain ⟨hposition, hlisted, hjournal⟩ := hplaced.transactions position row hrow
      have hne : index.chain.tip.height ≠ position.blockHeight := by
        intro hsame
        rw [hsame] at hretained
        exact hnot (hjournal undo hretained)
      refine ⟨hposition, ?_, ?_⟩
      · simp only [Table.row_erase, if_neg hne]
        exact hlisted
      · simp only [Table.row_erase, if_neg hne]
        exact hjournal
  · intro outpoint ref href
    simp only [ChainTables.undoRows, Table.row_eraseAll] at href
    split at href
    · cases href
    · next hnot =>
      obtain ⟨⟨row, hrow, htxid⟩, hjournal⟩ := hplaced.outputs outpoint ref href
      have hne : index.chain.tip.height ≠ ref.position.blockHeight := by
        intro hsame
        rw [hsame] at hretained
        exact hnot (hjournal undo hretained)
      refine ⟨⟨row, hkept _ row hrow hne.symm, htxid⟩, ?_⟩
      simp only [Table.row_erase, if_neg hne]
      exact hjournal
  · intro h row hrow
    simp only [Table.row_erase] at hrow
    split at hrow
    · cases hrow
    · next hne =>
      have hrowLocal := hplaced.journal h row hrow
      refine { hrowLocal with outputs := ?_ }
      simp only [Table.row_erase, if_neg hne]
      exact hrowLocal.outputs

end Index

end DeadcatNode
