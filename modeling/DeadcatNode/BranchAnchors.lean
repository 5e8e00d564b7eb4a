import DeadcatNode.NodeStoreOperations

/-!
# The anchors of the indexed branch

The blocks of the branch lead from the activation checkpoint to the tip: each
row holds the anchor of its height and the hash of the anchor below, and an undo
row returns to the anchor below its block.
-/

namespace DeadcatNode

open Checked

variable {allowed : Store → StoreOperation → Prop}

namespace Index

variable {tables : ContractTables} {delta : BlockDelta}

def anchorAt (activation : ChainAnchor) (index : Index) (h : ℕ) : Option ChainAnchor :=
  if h = activation.height then some activation
  else (index.chain.blocks[h]?).map StoredBlock.anchor

structure Anchored (activation : ChainAnchor) (index : Index) : Prop where
  tip : index.anchorAt activation index.chain.tip.height = some index.chain.tip
  heights : ∀ (h : ℕ) (block : StoredBlock),
    index.chain.blocks[h]? = some block → block.anchor.height = h
  previous : ∀ (h : ℕ) (block : StoredBlock), index.chain.blocks[h]? = some block → ∃ below,
      index.anchorAt activation (h - 1) = some below ∧ block.prevBlockHash = below.hash
  undo : ∀ (h : ℕ) (undo : UndoBlock), index.undoBlocks[h]? = some undo →
    index.anchorAt activation (h - 1) = some undo.previousTip

variable {hashing : Hashing} {activation : ChainAnchor} {index next : Index}

theorem anchorAt_eq (hblocks : next.chain.blocks = index.chain.blocks) (h : ℕ) :
    next.anchorAt activation h = index.anchorAt activation h := by
  rw [anchorAt, anchorAt, hblocks]

theorem anchored_atAnchor (activation : ChainAnchor) :
    Anchored activation ⟨.atAnchor activation, ∅⟩ := by
  constructor <;> simp [anchorAt, ChainTables.atAnchor]

theorem Anchored.write {height : ℕ} {scope : Scope}
    (hanchored : index.Anchored activation)
    (hwrite : Write hashing activation.height height scope index next) :
    next.Anchored activation := by
  obtain ⟨hblocks, htip⟩ := hwrite.chain_kept
  constructor
  · rw [anchorAt_eq hblocks, htip]
    exact hanchored.tip
  · rw [hblocks]
    exact hanchored.heights
  · intro h block hblock
    rw [anchorAt_eq hblocks]
    exact hanchored.previous h block (hblocks ▸ hblock)
  · intro h undo hundo
    obtain ⟨before, hbefore, hext⟩ := UndoGrows.exists_before hwrite.undoGrows hundo
    rw [anchorAt_eq hblocks, hext.previousTip]
    exact hanchored.undo h before hbefore

theorem anchorAt_openBlock {h : ℕ} (hne : delta.anchor.height ≠ h) :
    (index.openBlock hashing delta).anchorAt activation h = index.anchorAt activation h := by
  simp only [anchorAt, openBlock, Table.row_insert, if_neg hne]

theorem Anchored.openBlock (hanchored : index.Anchored activation)
    (hlinked : index.Linked activation.height)
    (hheight : delta.anchor.height = index.chain.tip.height + 1)
    (hprevious : delta.prevBlockHash = index.chain.tip.hash) :
    (index.openBlock hashing delta).Anchored activation := by
  have habove := hlinked.above
  have hbelow : delta.anchor.height - 1 = index.chain.tip.height := by omega
  -- an old height keeps its anchor
  have hold : ∀ h ≤ index.chain.tip.height,
      (index.openBlock hashing delta).anchorAt activation h = index.anchorAt activation h :=
    fun h hle => anchorAt_openBlock (by omega)
  have hrow : ∀ (h : ℕ) (block : StoredBlock),
      (index.openBlock hashing delta).chain.blocks[h]? = some block →
        delta.anchor.height = h ∧ block = .ofDelta hashing delta ∨
          index.chain.blocks[h]? = some block := by
    intro h block hblock
    simp only [Index.openBlock, Table.row_insert] at hblock
    split at hblock
    · next hsame =>
      cases hblock
      exact .inl ⟨hsame, rfl⟩
    · exact .inr hblock
  constructor
  · show (index.openBlock hashing delta).anchorAt activation delta.anchor.height = some delta.anchor
    simp only [anchorAt, Index.openBlock, Table.row_insert, if_true]
    rw [if_neg (by omega)]
    rfl
  · intro h block hblock
    rcases hrow h block hblock with ⟨rfl, rfl⟩ | hblock
    · rfl
    · exact hanchored.heights h block hblock
  · intro h block hblock
    rcases hrow h block hblock with ⟨rfl, rfl⟩ | hblock
    · refine ⟨index.chain.tip, ?_, hprevious⟩
      rw [hbelow, hold _ le_rfl]
      exact hanchored.tip
    · have hle := (hlinked.block h block hblock).2.1
      rw [hold _ (by omega)]
      exact hanchored.previous h block hblock
  · intro h undo hundo
    rcases undo_openBlock hundo with ⟨rfl, rfl⟩ | ⟨-, hundo⟩
    · rw [hbelow, hold _ le_rfl]
      exact hanchored.tip
    · have hle := (hlinked.undo h undo hundo).2.1
      rw [hold _ (by omega)]
      exact hanchored.undo h undo hundo

theorem anchorAt_unwind {undo : UndoBlock}
    (hunwinds : index.Unwinds hashing next undo tables) {h : ℕ} (hlt : h < index.chain.tip.height) :
    next.anchorAt activation h = index.anchorAt activation h := by
  obtain ⟨-, -, rfl⟩ := hunwinds
  simp only [anchorAt, Table.row_erase]
  rw [if_neg (by omega : ¬index.chain.tip.height = h)]

theorem Anchored.unwind {undo : UndoBlock}
    (hanchored : index.Anchored activation) (hlinked : index.Linked activation.height)
    (hunwinds : index.Unwinds hashing next undo tables) :
    next.Anchored activation := by
  have hold : ∀ h < index.chain.tip.height,
      next.anchorAt activation h = index.anchorAt activation h :=
    fun h hlt => anchorAt_unwind hunwinds hlt
  obtain ⟨hretained, -, rfl⟩ := hunwinds
  obtain ⟨hlow, -, hprevious⟩ := hlinked.undo _ _ hretained
  constructor
  · rw [hold _ (by dsimp only; omega)]
    have htop := hanchored.undo _ undo hretained
    rwa [show index.chain.tip.height - 1 = undo.previousTip.height by omega] at htop
  · intro h block hblock
    simp only [Table.row_erase] at hblock
    split at hblock
    · cases hblock
    · exact hanchored.heights h block hblock
  · intro h block hblock
    simp only [Table.row_erase] at hblock
    split at hblock
    · cases hblock
    · have hle := (hlinked.block h block hblock).2.1
      rw [hold _ (by omega)]
      exact hanchored.previous h block hblock
  · intro h row hrow
    simp only [Table.row_erase] at hrow
    split at hrow
    · cases hrow
    · have hle := (hlinked.undo h row hrow).2.1
      rw [hold _ (by omega)]
      exact hanchored.undo h row hrow

theorem Anchored.unwound (hanchored : index.Anchored activation)
    (hlinked : index.Linked activation.height)
    (hunwound : Relation.ReflTransGen (Unwound hashing) index next) :
    next.Linked activation.height ∧ next.Anchored activation ∧
      next.chain.tip.height ≤ index.chain.tip.height ∧
      ∀ h ≤ next.chain.tip.height, next.anchorAt activation h = index.anchorAt activation h := by
  induction hunwound with
  | refl => exact ⟨hlinked, hanchored, le_rfl, fun _ _ => rfl⟩
  | tail _ hstep ih =>
    obtain ⟨hlinkedMid, hanchoredMid, hbelow, hsame⟩ := ih
    obtain ⟨undo, tables, hunwinds⟩ := hstep
    obtain ⟨hlinkedNext, hheight⟩ := hlinkedMid.unwind hunwinds
    refine ⟨hlinkedNext, hanchoredMid.unwind hlinkedMid hunwinds, by omega, ?_⟩
    intro h hle
    exact (anchorAt_unwind hunwinds (by omega)).trans (hsame h (by omega))

/-- A block is only added on top of the block it names. -/
def ExtendsTip (index : Index) (delta : BlockDelta) : Prop :=
  delta.prevBlockHash = index.chain.tip.hash

theorem anchored_invariant (hashing : Hashing) (activation : ChainAnchor) :
    Invariant hashing activation ExtendsTip (Anchored activation) where
  atAnchor := anchored_atAnchor activation
  write _ hanchored hwrite := hanchored.write hwrite
  openBlock hindex hanchored hheight hextends := hanchored.openBlock hindex.linked hheight hextends
  unwind hindex hanchored hunwinds := hanchored.unwind hindex.linked hunwinds

structure Recent (index : Index) : Prop where
  retained : ∀ h : ℕ, (index.undoBlocks[h]?).isSome →
    index.chain.tip.height < h + undoRetentionBlocks
  word : index.chain.tip.height < 2 ^ 32

theorem Recent.openBlock (hword : delta.anchor.height < 2 ^ 32) :
    (index.openBlock hashing delta).Recent := by
  refine ⟨?_, hword⟩
  intro h hsome
  show delta.anchor.height < h + 2
  simp only [Index.openBlock, Table.row_insert, row_pruneUndo] at hsome
  split at hsome
  · omega
  · split at hsome
    · omega
    · cases hsome

theorem Recent.unwind {undo : UndoBlock}
    (hlinked : index.Linked activation.height) (hrecent : index.Recent)
    (hunwinds : index.Unwinds hashing next undo tables) : next.Recent := by
  have hbelow := (hlinked.unwind hunwinds).2
  have hword := hrecent.word
  refine ⟨?_, by omega⟩
  intro h hsome
  have hold : (index.undoBlocks[h]?).isSome := by
    obtain ⟨-, -, rfl⟩ := hunwinds
    rw [Table.row_erase] at hsome
    split at hsome
    · cases hsome
    · exact hsome
  have hretained := hrecent.retained h hold
  omega

theorem recent_invariant (hashing : Hashing) (activation : ChainAnchor) :
    Invariant hashing activation (fun _ delta => delta.anchor.height < 2 ^ 32)
      fun index => activation.height < 2 ^ 32 → index.Recent where
  atAnchor hword := ⟨by simp, hword⟩
  write _ hrecent hwrite hword := by
    obtain ⟨-, htip⟩ := hwrite.chain_kept
    refine ⟨fun h hsome => ?_, htip ▸ (hrecent hword).word⟩
    rw [htip]
    exact (hrecent hword).retained h ((UndoGrows.isSome_iff hwrite.undoGrows h).mp hsome)
  openBlock _ _ _ hsmall _ := .openBlock hsmall
  unwind hindex hrecent hunwinds hword := (hrecent hword).unwind hindex.linked hunwinds

end Index

theorem Store.ReachableBy.anchored {hashing : Hashing} {store : Store}
    (hstore : store.ReachableBy hashing allowed) : store.index.Anchored store.activationAnchor :=
  hstore.invariant (Index.anchored_invariant hashing) fun _ hextends => hextends.previous

theorem Store.ReachableBy.canonicalAnchor_eq {hashing : Hashing} {store : Store}
    (hstore : store.ReachableBy hashing allowed) {h : ℕ} (hlow : store.activationAnchor.height ≤ h)
    (hhigh : h ≤ store.chain.tip.height) (hword : store.chain.tip.height < 2 ^ 32) :
    store.chain.canonicalAnchor h = store.index.anchorAt store.activationAnchor h := by
  have hanchored := hstore.anchored
  have hlinked := hstore.wellFormed.linked
  unfold ChainTables.canonicalAnchor
  rw [if_neg (by omega)]
  split
  · next htip =>
    rw [htip]
    exact hanchored.tip.symm
  · next hbelow =>
    by_cases hbase : h = store.activationAnchor.height
    · subst hbase
      have hfree : store.chain.blocks[store.activationAnchor.height]? =
          none := by
        by_contra hsome
        obtain ⟨block, hblock⟩ := Option.ne_none_iff_exists'.mp hsome
        exact lt_irrefl _ (hlinked.block _ block hblock).1
      obtain ⟨first, hfirst⟩ := Option.isSome_iff_exists.mp (hlinked.filled
        (store.activationAnchor.height + 1) (by omega) (show _ ≤ store.chain.tip.height by omega))
      obtain ⟨below, hbelow', hhash⟩ := hanchored.previous _ first hfirst
      rw [Nat.add_sub_cancel, Index.anchorAt, if_pos rfl] at hbelow'
      cases hbelow'
      have hnext : checkedAdd 32 store.activationAnchor.height 1 =
          some (store.activationAnchor.height + 1) :=
        checkedAdd_eq_some.mpr ⟨rfl, by omega⟩
      have hrow : store.chain.blocks[store.activationAnchor.height + 1]? = some first := hfirst
      rw [hfree, hnext]
      simp only [hrow, Option.map_some, Index.anchorAt, if_true, hhash]
    · obtain ⟨block, hblock⟩ := Option.isSome_iff_exists.mp (hlinked.filled h (by omega) hhigh)
      have hrow : store.chain.blocks[h]? = some block := hblock
      simp only [hrow, Index.anchorAt, if_neg hbase, Store.index, Option.map_some]

section

variable {hashing : Hashing} {store next : Store}

theorem Store.Reachable.recent (hstore : store.Reachable hashing)
    (hword : store.activationAnchor.height < 2 ^ 32) : store.index.Recent :=
  hstore.invariant (Index.recent_invariant hashing) (fun _ hextends => hextends.word) hword

theorem Store.Reachable.canonicalAnchor_isSome (hstore : store.Reachable hashing)
    (hword : store.chain.tip.height < 2 ^ 32) (h : ℕ) :
    (store.chain.canonicalAnchor h).isSome ↔
      store.activationAnchor.height ≤ h ∧ h ≤ store.chain.tip.height := by
  have hlinked := hstore.wellFormed.linked
  constructor
  · intro hsome
    obtain ⟨anchor, hanchor⟩ := Option.isSome_iff_exists.mp hsome
    have hle := ChainTables.height_le_of_canonicalAnchor hanchor
    refine ⟨?_, hle⟩
    by_contra hlow
    -- neither the height nor the one above has a block
    have hfree : ∀ h' ≤ store.activationAnchor.height, store.chain.blocks[h']? = none := by
      intro h' hbelow
      by_contra hblock
      obtain ⟨block, hblock⟩ := Option.ne_none_iff_exists'.mp hblock
      have habove := (hlinked.block h' block hblock).1
      omega
    have htip : store.activationAnchor.height ≤ store.chain.tip.height := hlinked.above
    have hnext : checkedAdd 32 h 1 = some (h + 1) := checkedAdd_eq_some.mpr ⟨rfl, by omega⟩
    rw [ChainTables.canonicalAnchor, if_neg (by omega), if_neg (by omega), hfree h (by omega),
      hnext] at hanchor
    simp only [hfree (h + 1) (by omega)] at hanchor
    cases hanchor
  · rintro ⟨hlow, hhigh⟩
    rw [hstore.canonicalAnchor_eq hlow hhigh hword, Index.anchorAt]
    split
    · rfl
    · rw [Option.isSome_map]
      exact hlinked.filled h (by omega) hhigh

theorem Store.Reachable.rollbackTo_ok (hstore : store.Reachable hashing)
    (hword : store.chain.tip.height < 2 ^ 32) {ancestor : ChainAnchor} {epoch : ℕ}
    {result : RollbackResult}
    (hrollback : store.rollbackTo hashing ancestor epoch = .ok (result, next)) :
    (result = .noop store.chain.tip ∧ ancestor = store.chain.tip ∧ next = store) ∨
    (∃ positions watermark, result = .rolledBack store.chain.tip ancestor positions watermark ∧
      next.chain.tip = ancestor ∧ ancestor.height < store.chain.tip.height ∧
      store.chain.canonicalAnchor ancestor.height = some ancestor ∧
      ∀ h : ℕ, ancestor.height < h → h ≤ store.chain.tip.height → (store.undoBlocks[h]?).isSome) ∨
    ∃ drawn, result = .rebuildRequired store.chain.tip ancestor drawn ∧
      next.index = store.index := by
  have hlinked := hstore.wellFormed.linked
  obtain ⟨hunwound, -⟩ := rollbackTo_unwinds hlinked hrollback
  obtain ⟨hlinkedNext, hanchored, hbelow, hsame⟩ := hstore.anchored.unwound hlinked hunwound
  simp only [rollbackTo, bind_eq_ok, require_eq_ok] at hrollback
  obtain ⟨-, -, hrollback⟩ := hrollback
  split at hrollback
  · next htip =>
    simp only [pure_eq_ok, Prod.mk.injEq] at hrollback
    exact .inl ⟨hrollback.1.symm, htip, hrollback.2.symm⟩
  simp only [bind_eq_ok, require_eq_ok] at hrollback
  obtain ⟨-, hlower, hrollback⟩ := hrollback
  right
  split at hrollback
  · simp only [bind_eq_ok, pure_eq_ok, Prod.mk.injEq] at hrollback
    obtain ⟨marked, hmarked, rfl, rfl⟩ := hrollback
    exact .inr ⟨_, rfl, (markRebuildRequired_index hmarked).1⟩
  · next hretained =>
    simp only [bind_eq_ok, require_eq_ok, pure_eq_ok, Prod.mk.injEq] at hrollback
    obtain ⟨write, -, -, htip, journal, -, rfl, rfl⟩ := hrollback
    refine .inl ⟨_, _, rfl, htip, hlower, ?_, ?_⟩
    · have hlow : store.activationAnchor.height ≤ write.chain.tip.height := hlinkedNext.above
      have hon := (hsame _ le_rfl).symm.trans hanchored.tip
      dsimp only [Store.index] at hon
      rw [htip] at hlow hon
      rw [hstore.canonicalAnchor_eq hlow hlower.le hword]
      exact hon
    · intro h hlt hle
      have havailable : undoRangeAvailable store.undoBlocks store.chain.tip.height
          ancestor.height = true := by
        by_contra hmissing
        exact hretained (.inr (by simpa using hmissing))
      have hrow := List.all_eq_true.mp havailable (h - (ancestor.height + 1))
        (List.mem_range.mpr (by omega))
      rwa [show ancestor.height + 1 + (h - (ancestor.height + 1)) = h by omega] at hrow

/-- The blocks of a reachable store form a chain with bounded undo, and a rollback ends on it. -/
theorem Store.chain_rows_linked (hstore : store.Reachable hashing)
    (hword : store.activationAnchor.height < 2 ^ 32) :
    (∀ h : ℕ, (store.chain.blocks[h]?).isSome ↔
      store.activationAnchor.height < h ∧ h ≤ store.chain.tip.height) ∧
    (∀ (h : ℕ) (block : StoredBlock), store.chain.blocks[h]? = some block →
      block.anchor.height = h ∧ (h = store.activationAnchor.height + 1 ∧
            block.prevBlockHash = store.activationAnchor.hash ∨
          ∃ below : StoredBlock, store.chain.blocks[h - 1]? = some below ∧
            block.prevBlockHash = below.anchor.hash)) ∧
    (∀ h : ℕ, (store.undoBlocks[h]?).isSome →
      store.activationAnchor.height < h ∧ h ≤ store.chain.tip.height ∧
        store.chain.tip.height < h + 2 ∧
        ∀ h' : ℕ, h ≤ h' → h' ≤ store.chain.tip.height → (store.undoBlocks[h']?).isSome) ∧
    (∀ h : ℕ, (store.chain.canonicalAnchor h).isSome ↔
      store.activationAnchor.height ≤ h ∧ h ≤ store.chain.tip.height) ∧
    ∀ (ancestor : ChainAnchor) (epoch : ℕ), store.syncStatus ≠ .rescanRequired →
      match store.rollbackTo hashing ancestor epoch with
      | .error _ => store.attempt hashing (.rollbackTo ancestor epoch) = store
      | .ok (.noop tip, next) => ancestor = store.chain.tip ∧ tip = store.chain.tip ∧ next = store
      | .ok (.rolledBack _ newTip _ _, next) => newTip = ancestor ∧ next.chain.tip = ancestor ∧
          ancestor.height < store.chain.tip.height ∧
          store.chain.canonicalAnchor ancestor.height = some ancestor ∧
          ∀ h : ℕ, ancestor.height < h → h ≤ store.chain.tip.height → (store.undoBlocks[h]?).isSome
      | .ok (.rebuildRequired _ _ _, next) =>
        next.chain = store.chain ∧ next.undoBlocks = store.undoBlocks := by
  have hlinked := hstore.wellFormed.linked
  have hanchored := hstore.anchored
  have hrecent := Store.Reachable.recent hstore hword
  refine ⟨?_, ?_, ?_, Store.Reachable.canonicalAnchor_isSome hstore hrecent.word, ?_⟩
  · intro h
    refine ⟨fun hsome => ?_, fun ⟨hlow, hhigh⟩ => hlinked.filled h hlow hhigh⟩
    obtain ⟨block, hblock⟩ := Option.isSome_iff_exists.mp hsome
    obtain ⟨hlow, hhigh, -⟩ := hlinked.block h block hblock
    exact ⟨hlow, hhigh⟩
  · intro h block hblock
    refine ⟨hanchored.heights h block hblock, ?_⟩
    have hlow := (hlinked.block h block hblock).1
    obtain ⟨below, hbelow, hhash⟩ := hanchored.previous h block hblock
    rw [Index.anchorAt] at hbelow
    split at hbelow
    · cases hbelow
      exact .inl ⟨by omega, hhash⟩
    · obtain ⟨row, hrow, rfl⟩ := Option.map_eq_some_iff.mp hbelow
      exact .inr ⟨row, hrow, hhash⟩
  · intro h hsome
    obtain ⟨undo, hundo⟩ := Option.isSome_iff_exists.mp hsome
    obtain ⟨hlow, hhigh, -⟩ := hlinked.undo h undo hundo
    exact ⟨hlow, hhigh, hrecent.retained h hsome, fun h' => hlinked.segment h h' hsome⟩
  · intro ancestor epoch _
    have hcases : ∀ {result : RollbackResult} {next : Store},
        store.rollbackTo hashing ancestor epoch = .ok (result, next) → _ :=
      Store.Reachable.rollbackTo_ok hstore hrecent.word
    split
    · next hfailed => simp [attempt, perform, hfailed]
    · next hrollback =>
      rcases hcases hrollback with ⟨heq, htip, rfl⟩ | ⟨_, _, heq, -⟩ | ⟨_, heq, -⟩ <;> cases heq
      exact ⟨htip, rfl, rfl⟩
    · next hrollback =>
      rcases hcases hrollback with ⟨heq, -⟩ | ⟨_, _, heq, hon⟩ | ⟨_, heq, -⟩ <;> cases heq
      exact ⟨rfl, hon⟩
    · next hrollback =>
      rcases hcases hrollback with ⟨heq, -⟩ | ⟨_, _, heq, -⟩ | ⟨_, heq, hsame⟩ <;> cases heq
      exact ⟨congrArg Index.chain hsame, congrArg Index.undoBlocks hsame⟩

/-- Three blocks, of which the last is replaced. -/
def replacedBranch : Store :=
  (Store.initial ⟨5, 7⟩ 0).attempts ⟨fun _ => 0, fun _ => 0, fun _ => 0⟩
    [.applyBlock ⟨⟨6, 8⟩, 7, [1], [], []⟩, .applyBlock ⟨⟨7, 9⟩, 8, [2], [], []⟩,
      .applyBlock ⟨⟨8, 10⟩, 9, [3], [], []⟩, .rollbackTo ⟨7, 9⟩ 1,
      .applyBlock ⟨⟨8, 11⟩, 9, [4], [], []⟩]

theorem Store.chain_rows_linked_replacedBranch : replacedBranch.chain.tip = ⟨8, 11⟩ ∧
    replacedBranch.chain.blocks.toList.map (fun row => (row.1, row.2.prevBlockHash)) =
      [(6, 7), (7, 8), (8, 9)] ∧
    replacedBranch.undoBlocks.toList.map Prod.fst = [7, 8] ∧
    (∀ h : ℕ, (replacedBranch.undoBlocks[h]?).isSome →
      replacedBranch.chain.tip.height < h + 2) ∧
    ∀ h : ℕ, (replacedBranch.chain.canonicalAnchor h).isSome ↔
      replacedBranch.activationAnchor.height ≤ h ∧ h ≤ replacedBranch.chain.tip.height := by
  have hrows := chain_rows_linked ((ReachableBy.initial ⟨5, 7⟩ 0).attempts _)
    (by decide +kernel : replacedBranch.activationAnchor.height < 2 ^ 32)
  refine ⟨?_, ?_, ?_, fun h hsome => (hrows.2.2.1 h hsome).2.2.1, hrows.2.2.2.1⟩ <;>
    decide +kernel

end

end DeadcatNode
