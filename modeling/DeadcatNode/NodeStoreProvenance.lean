import DeadcatNode.DeadcatInterpreter
import DeadcatNode.NodeStoreInverse
import DeadcatNode.NodeStoreRestoration

/-!
# Where the contracts' outputs come from

Every output a contract tracks, and the state it is in, were produced by a
transaction of the indexed branch.  The invariant speaks about every record the
retained undo rows would restore, so that a rollback keeps it.  It is kept by
every operation as long as no transaction id is repeated and no block is
backfilled for a contract which a newer retained undo row has already changed.
-/

namespace DeadcatNode

open Checked

variable {record : ContractRecord}

/-- One transaction of the branch, at most at the given height, produced the
outputs and the state of a contract. -/
def ChainTables.ProducedBy (chain : ChainTables) (height : ℕ) (record : ContractRecord) : Prop :=
  ∃ position row, chain.transactions[position]? = some row ∧ position.blockHeight ≤ height ∧
    (∀ tracked ∈ record.outpoints, tracked.outpoint ∈ row.allOutpoints) ∧
    (position = record.creationPosition ∧ record.state = .trading 0 ∨
      ∃ entry, chain.contractHistory[historyKey record.contractId position]? =
        some entry ∧ entry.newState = record.state)

theorem ChainTables.ProducedBy.mono {chain : ChainTables} {low high : ℕ}
    (hle : low ≤ high) (hproduced : chain.ProducedBy low record) :
    chain.ProducedBy high record := by
  obtain ⟨position, row, hrow, hposition, hrest⟩ := hproduced
  exact ⟨position, row, hrow, hposition.trans hle, hrest⟩

namespace Index

variable {hashing : Hashing} {activation height : ℕ} {scope : Scope} {index next : Index}
  (hwrite : Write hashing activation height scope index next)
  {c : ContractId} {tables : ContractTables}

/-- New contracts are stored in the state of a new market. -/
def Scope.Initial (scope : Scope) : Prop := ∀ record ∈ scope.created, record.state = .trading 0

include hwrite in
theorem Write.transaction_kept
    {position : ChainPosition} {row : StoredTransaction}
    (hrow : index.chain.transactions[position]? = some row) :
    ∃ row', next.chain.transactions[position]? = some row' ∧
      row'.allOutpoints = row.allOutpoints := by
  cases hwrite with
  | @putTransaction new _ _ _ _ hfresh =>
    have hne : new.position ≠ position := by
      rintro rfl
      rw [hfresh] at hrow
      cases hrow
    exact ⟨row, by simp [Index.putTransaction, hne, hrow], rfl⟩
  | @setAffected stored affected hstored =>
    by_cases hsame : stored.position = position
    · subst hsame
      rw [hstored] at hrow
      cases hrow
      refine ⟨{ row with affectedContractIds := affected }, ?_, rfl⟩
      simp [Index.setAffected]
    · exact ⟨row, by simp [Index.setAffected, hsame, hrow], rfl⟩
  | _ => exact ⟨row, hrow, rfl⟩

include hwrite in
theorem Write.history_kept
    {key : HistoryKey} {entry : StoredHistoryEntry}
    (hrow : index.chain.contractHistory[key]? = some entry) :
    next.chain.contractHistory[key]? = some entry := by
  cases hwrite with
  | @applyTransition before after new row _ _ _ _ _ _ _ _ _ hentry =>
    have hne : historyKey before.contractId new.position ≠ key := by
      rintro rfl
      rw [hentry] at hrow
      cases hrow
    simp [Index.putHistory, Index.replaceContract, hne, hrow]
  | _ => exact hrow

include hwrite in
theorem Write.producedBy {h : ℕ}
    (hproduced : index.chain.ProducedBy h record) :
    next.chain.ProducedBy h record := by
  obtain ⟨position, row, hrow, hle, houtputs, hstate⟩ := hproduced
  obtain ⟨row', hrow', hsame⟩ := hwrite.transaction_kept hrow
  refine ⟨position, row', hrow', hle, ?_, ?_⟩
  · rw [hsame]
    exact houtputs
  · rcases hstate with hcreation | ⟨entry, hentry, hnew⟩
    · exact .inl hcreation
    · exact .inr ⟨entry, hwrite.history_kept hentry, hnew⟩

include hwrite in
/-- What a write does to the contract records: it leaves them and their images
alone, or rewrites one of them with what a transaction at the height produced,
or changes only how far a contract is synchronised. -/
theorem Write.records (hindex : index.WellFormed hashing activation) (hinitial : scope.Initial)
    (hheight : scope.touched.Nonempty → height ≤ index.chain.tip.height) :
    (next.chain.contractTables = index.chain.contractTables ∧
        ∀ h, next.changesAt h = index.changesAt h) ∨
      ∃ c after, Rewrites height c after index next ∧
        (c ∈ scope.touched ∨ index.chain.contractTables.contracts[c]? = none) ∧
        (next.chain.ProducedBy height after ∨ ∃ before syncState,
            index.chain.contractTables.contracts[c]? = some before ∧
              after = { before with syncState }) := by
  have htip : ∀ {position : ChainPosition} {row : StoredTransaction},
      index.chain.transactions[position]? = some row →
        position.blockHeight ≤ index.chain.tip.height :=
    fun hrow => hindex.placed.height_le_tip hindex.linked hrow
  cases hwrite with
  | putTransaction =>
    exact .inl ⟨rfl, changesAt_kept _ rfl fun _ => rfl⟩
  | setAffected => exact .inl ⟨rfl, fun _ => rfl⟩
  | @createContract record row hat hinsertable hrow hproduced hcreated =>
    refine .inr ⟨_, record, rewrites_createContract (hat ▸ htip hrow) hinsertable.absent,
      .inr hinsertable.absent,
      .inl ⟨_, row, hrow, hat.le, hproduced, .inl ⟨rfl, hinitial record hcreated⟩⟩⟩
  | @applyTransition before after entry row hat htouched hbefore hid _ _ hrow hproduced hstate =>
    refine .inr ⟨_, after, (rewrites_replaceContract (hat ▸ htip hrow) hbefore
      hid ?_).putHistory _ _, .inl htouched,
      .inl ⟨_, row, hrow, hat.le, hproduced, .inr ⟨entry, ?_, hstate⟩⟩⟩
    · intro hfalse
      cases hfalse
    · simp [Index.putHistory, hid]
  | @advance before syncState _ _ _ htouched hbefore _ _ hjournalled =>
    refine .inr ⟨_, { before with syncState }, (rewrites_replaceContract
      (hheight ⟨_, htouched⟩) hbefore ?_ hjournalled).putProgress _,
      .inl htouched, .inr ⟨before, syncState, hbefore, rfl⟩⟩
    rfl
  | putHint | journalCursors => exact .inl ⟨rfl, changesAt_kept _ rfl fun _ => rfl⟩
  | setHint => exact .inl ⟨rfl, fun _ => rfl⟩
  | @register record row item hat hinsertable hrow hproduced _ _ hcreated =>
    exact .inr ⟨_, record, ((rewrites_createContract (hat ▸ htip hrow)
      hinsertable.absent).journalProgress _).putProgress _, .inr hinsertable.absent,
      .inl ⟨_, row, hrow, hat.le, hproduced, .inl ⟨rfl, hinitial record hcreated⟩⟩⟩

/-! ## The invariant -/

def OutputsComplete (index : Index) : Prop :=
  ∀ (position : ChainPosition) (row : StoredTransaction),
    index.chain.transactions[position]? = some row →
      ∀ outpoint ∈ row.allOutpoints, index.chain.outputs[outpoint]? = some ⟨position, outpoint⟩

/-- Whatever the retained undo rows would restore was produced by the branch up
to the height it is restored at. -/
structure Recoverable (index : Index) : Prop where
  unique : NoRepeatedTxid index.chain.blocks
  outputs : index.OutputsComplete
  produced : ∀ (c : ContractId) (depth : ℕ) (record : ContractRecord),
    index.Retains depth → index.recordAt c depth = some record →
      index.chain.ProducedBy (index.chain.tip.height - depth) record
  live : ∀ (c : ContractId) (depth : ℕ), index.Retains (depth + 1) →
    c ∈ (index.changesAt (index.chain.tip.height - depth)).map
        ContractUndo.contractId → (index.recordAt c depth).isSome

theorem recoverable_atAnchor (anchor : ChainAnchor) : Recoverable ⟨.atAnchor anchor, ∅⟩ := by
  have hretains : ∀ depth, ¬Retains ⟨.atAnchor anchor, ∅⟩ (depth + 1) := by
    intro depth hretains
    simpa using hretains 0 (Nat.succ_pos _)
  refine ⟨?_, ?_, ?_, ?_⟩
  · intro h h' block block' txid hblock
    simp [ChainTables.atAnchor] at hblock
  · intro position row hrow
    simp [ChainTables.atAnchor] at hrow
  · intro c depth record hdepth hrecord
    cases depth with
    | zero =>
      simp [recordAt_zero, ChainTables.atAnchor, ContractTables.empty] at hrecord
    | succ depth => exact absurd hdepth (hretains depth)
  · intro c depth hdepth
    exact absurd hdepth (hretains depth)

theorem WellFormed.position_eq (hindex : index.WellFormed hashing activation)
    (hunique : NoRepeatedTxid index.chain.blocks)
    {position : ChainPosition} {row new : StoredTransaction} {block : StoredBlock}
    (hrow : index.chain.transactions[position]? = some row)
    (hblock : index.chain.blocks[new.position.blockHeight]? = some block)
    (hlists : block.Lists new) (htxid : row.txid = new.txid) : position = new.position := by
  obtain ⟨hposition, ⟨other, hother, hlists'⟩, -⟩ := hindex.placed.transactions position row hrow
  have hheight : position.blockHeight = new.position.blockHeight := by
    refine hunique _ _ other block row.txid hother hblock (List.mem_of_getElem? hlists'.txid) ?_
    rw [htxid]
    exact List.mem_of_getElem? hlists.txid
  rw [hheight, hblock] at hother
  cases hother
  have hnodup := (hindex.linked.block _ block hblock).2.2
  have htwo := hlists'.txid
  rw [htxid, ← hlists.txid, hposition] at htwo
  have hindexes : position.txIndex = new.position.txIndex := by
    have hlt : position.txIndex < block.orderedTxids.length := by
      by_contra hge
      rw [List.getElem?_eq_none (by omega), hlists.txid] at htwo
      cases htwo
    exact (List.getElem?_inj hlt hnodup).mp htwo
  cases position
  cases hnew : new.position
  rw [hnew] at hheight hindexes
  dsimp only at hheight hindexes
  rw [hheight, hindexes]

include hwrite in
theorem OutputsComplete.write (hcomplete : index.OutputsComplete)
    (hindex : index.WellFormed hashing activation) (hunique : NoRepeatedTxid index.chain.blocks) :
    next.OutputsComplete := by
  intro position row hrow outpoint houtpoint
  cases hwrite with
  | @putTransaction new block hheight hblock hlists hfresh =>
    simp only [Index.putTransaction, Table.row_insert] at hrow
    simp only [Index.putTransaction]
    rw [row_outputs]
    split at hrow
    · next hsame =>
      cases hrow
      exact .inl ⟨houtpoint, by rw [hsame]⟩
    · next hne =>
      refine .inr ⟨?_, hcomplete position row hrow outpoint houtpoint⟩
      intro hmem
      obtain ⟨vout, -, rfl⟩ := List.mem_map.mp houtpoint
      obtain ⟨vout', -, heq⟩ := List.mem_map.mp hmem
      refine hne (hindex.position_eq hunique hrow (hheight ▸ hblock) hlists ?_).symm
      exact (congrArg OutPoint.txid heq).symm
  | @setAffected stored affected hstored =>
    simp only [Index.setAffected, Table.row_insert] at hrow
    split at hrow
    · next hsame =>
      cases hrow
      subst hsame
      exact hcomplete _ _ hstored outpoint houtpoint
    · exact hcomplete position row hrow outpoint houtpoint
  | _ => exact hcomplete position row hrow outpoint houtpoint

/-! ## Writes keep the invariant -/

include hwrite in
theorem Write.retained_iff (h : ℕ) :
    (next.undoBlocks[h]?).isSome ↔ (index.undoBlocks[h]?).isSome :=
  UndoGrows.isSome_iff hwrite.undoGrows h

include hwrite in
theorem Write.retains_iff (depth : ℕ) :
    next.Retains depth ↔ index.Retains depth := by
  simp only [Retains, hwrite.chain_kept.2, hwrite.retained_iff]

theorem Recoverable.clear_of_absent (hrecoverable : index.Recoverable)
    (hlinked : index.Linked activation)
    (habsent : index.chain.contractTables.contracts[c]? = none) (h : ℕ) :
    c ∉ (index.changesAt h).map ContractUndo.contractId := by
  -- going down from the tip, the absent record stays absent
  have hdown : ∀ depth, index.Retains depth → index.recordAt c depth = none := by
    intro depth
    induction depth with
    | zero => exact fun _ => habsent
    | succ depth ih =>
      intro hretains
      have hnone := ih fun i hi => hretains i (Nat.lt_succ_of_lt hi)
      rw [recordAt_succ, restoredBy_of_notMem, hnone]
      intro hmem
      have hsome := hrecoverable.live c depth hretains hmem
      rw [hnone] at hsome
      cases hsome
  intro hmem
  have hsome : (index.undoBlocks[h]?).isSome := by
    by_contra hnone
    rw [changesAt_of_none (by simpa using hnone)] at hmem
    cases hmem
  obtain ⟨undo, hundo⟩ := Option.isSome_iff_exists.mp hsome
  have hle := (hlinked.undo h undo hundo).2.1
  have hat : index.chain.tip.height - (index.chain.tip.height - h) = h := by omega
  have hretains : index.Retains (index.chain.tip.height - h + 1) :=
    hlinked.retains_of_row (by rw [hat]; exact hsome)
  have hlive := hrecoverable.live c _ hretains (by rw [hat]; exact hmem)
  rw [hdown _ fun i hi => hretains i (Nat.lt_succ_of_lt hi)] at hlive
  cases hlive

include hwrite in
theorem Recoverable.rewrite_produced {after : ContractRecord}
    (hrecoverable : index.Recoverable) (hlinked : index.Linked activation)
    (hrewrites : Rewrites height c after index next) (hclear : index.ClearAbove height {c})
    (hafter : next.chain.ProducedBy height after ∨ ∃ before syncState,
        index.chain.contractTables.contracts[c]? = some before ∧ after = { before with syncState })
    (c' : ContractId) (depth : ℕ) (record : ContractRecord) (hretains : index.Retains depth)
    (hrecord : next.recordAt c' depth = some record) :
    next.chain.ProducedBy (index.chain.tip.height - depth) record := by
  have hold : index.recordAt c' depth = some record →
      next.chain.ProducedBy (index.chain.tip.height - depth) record :=
    fun hrecord => hwrite.producedBy (hrecoverable.produced c' depth record hretains hrecord)
  by_cases hne : c' = c
  · subst hne
    rcases hrewrites.recordAt hclear (hlinked.retains_le hretains) hretains with
      hsame | ⟨hbelow, hnew, hkept⟩
    · exact hold (hsame ▸ hrecord)
    · rw [hnew] at hrecord
      cases hrecord
      rcases hafter with hproduced | ⟨before, syncState, hbefore, rfl⟩
      · exact hproduced.mono (by omega)
      · -- only the synchronisation changed, so the old record's producer serves
        rw [hbefore] at hkept
        exact hwrite.producedBy (hrecoverable.produced c' depth before hretains hkept)
  · rw [hrewrites.recordAt_other hne] at hrecord
    exact hold hrecord

theorem Recoverable.rewrite_live {after : ContractRecord}
    (hrecoverable : index.Recoverable) (hlinked : index.Linked activation)
    (hrewrites : Rewrites height c after index next)
    (hclear : index.ClearAbove height {c}) (c' : ContractId) (depth : ℕ)
    (hretains : index.Retains (depth + 1))
    (hmem : c' ∈ (next.changesAt (index.chain.tip.height - depth)).map ContractUndo.contractId) :
    (next.recordAt c' depth).isSome := by
  have hdepth : index.Retains depth := fun i hi => hretains i (Nat.lt_succ_of_lt hi)
  have hle := hlinked.retains_le hretains
  by_cases hne : c' = c
  · subst hne
    rcases hrewrites.changes (index.chain.tip.height - depth) with
      ⟨hsame, -⟩ | ⟨hat, hsome, -⟩
    · rw [hsame] at hmem
      have hlive := hrecoverable.live c' depth hretains hmem
      rcases hrewrites.recordAt hclear (by omega) hdepth with
        hold | ⟨-, hnew, -⟩
      · rw [hold]
        exact hlive
      · rw [hnew]
        rfl
    · -- the new image is the newest one, so the new record is still in place
      rw [recordAt_of_clear, hrewrites.written]
      · rfl
      · intro i hi
        rw [hrewrites.tip]
        rcases hrewrites.changes (index.chain.tip.height - i) with
          ⟨hsame, -⟩ | ⟨habove, -⟩
        · rw [hsame]
          exact hclear (hat ▸ hsome) c' rfl _ (by omega)
        · omega
  · rw [hrewrites.recordAt_other hne]
    apply hrecoverable.live c' depth hretains
    rcases hrewrites.changes (index.chain.tip.height - depth) with
      ⟨hsame, -⟩ | ⟨-, -, hnew⟩
    · exact hsame ▸ hmem
    · rw [hnew, List.map_append, List.mem_append] at hmem
      simpa [hne] using hmem

include hwrite in
theorem ClearAbove.write (hclear : index.ClearAbove height scope.touched)
    (hindex : index.WellFormed hashing activation) (hinitial : scope.Initial)
    (hheight : scope.touched.Nonempty → height ≤ index.chain.tip.height) :
    next.ClearAbove height scope.touched := by
  intro hretained c hc h habove
  rw [hwrite.retained_iff] at hretained
  have hsame : next.changesAt h = index.changesAt h := by
    rcases hwrite.records hindex hinitial hheight with
      ⟨-, hchanges⟩ | ⟨c', after, hrewrites, -⟩
    · exact hchanges h
    · rcases hrewrites.changes h with ⟨hsame, -⟩ | ⟨hat, -⟩
      · exact hsame
      · omega
  rw [hsame]
  exact hclear hretained c hc h habove

include hwrite in
theorem Recoverable.write (hrecoverable : index.Recoverable)
    (hindex : index.WellFormed hashing activation) (hinitial : scope.Initial)
    (hheight : scope.touched.Nonempty → height ≤ index.chain.tip.height)
    (hclear : index.ClearAbove height scope.touched) :
    next.Recoverable := by
  obtain ⟨hblocks, htip⟩ := hwrite.chain_kept
  have hunique : NoRepeatedTxid next.chain.blocks := hblocks ▸ hrecoverable.unique
  have houtputs := hrecoverable.outputs.write hwrite hindex hrecoverable.unique
  rcases hwrite.records hindex hinitial hheight with
    ⟨hsame, hchanges⟩ | ⟨c, after, hrewrites, htouched, hafter⟩
  · have hrecords : ∀ c depth, next.recordAt c depth = index.recordAt c depth :=
      fun c => recordAt_congr htip (by rw [hsame]) fun h _ => by rw [hchanges]
    refine ⟨hunique, houtputs, ?_, ?_⟩
    · intro c depth record hretains hrecord
      rw [hwrite.retains_iff] at hretains
      rw [hrecords] at hrecord
      rw [htip]
      exact hwrite.producedBy (hrecoverable.produced c depth record hretains hrecord)
    · intro c depth hretains hmem
      rw [hwrite.retains_iff] at hretains
      rw [htip, hchanges] at hmem
      rw [hrecords]
      exact hrecoverable.live c depth hretains hmem
  · have hclearOne : index.ClearAbove height {c} := by
      intro hretained c' hc' h habove
      rw [Set.mem_singleton_iff] at hc'
      subst hc'
      rcases htouched with hmem | habsent
      · exact hclear hretained c' hmem h habove
      · exact hrecoverable.clear_of_absent hindex.linked habsent h
    refine ⟨hunique, houtputs, ?_, ?_⟩
    · intro c' depth record hretains hrecord
      rw [hwrite.retains_iff] at hretains
      rw [htip]
      exact hrecoverable.rewrite_produced hwrite hindex.linked hrewrites
        hclearOne hafter c' depth record hretains hrecord
    · intro c' depth hretains hmem
      rw [hwrite.retains_iff] at hretains
      rw [htip] at hmem
      exact hrecoverable.rewrite_live hindex.linked hrewrites hclearOne c' depth hretains hmem

theorem Recoverable.writes (hrecoverable : index.Recoverable) (hinitial : scope.Initial)
    (hindex : index.WellFormed hashing activation) (hheight : height ≤ index.chain.tip.height)
    (hclear : index.ClearAbove height scope.touched)
    (hwrites : Writes hashing activation height scope index next) :
    next.Recoverable := by
  have hall : next.Recoverable ∧ next.WellFormed hashing activation ∧
      height ≤ next.chain.tip.height ∧ next.ClearAbove height scope.touched := by
    induction hwrites with
    | refl => exact ⟨hrecoverable, hindex, hheight, hclear⟩
    | tail _ hwrite ih =>
      obtain ⟨hmid, hmidIndex, hmidHeight, hmidClear⟩ := ih
      refine ⟨hmid.write hwrite hmidIndex hinitial (fun _ => hmidHeight) hmidClear,
        hmidIndex.write hwrite, ?_, hmidClear.write hwrite hmidIndex hinitial (fun _ => hmidHeight)⟩
      rw [hwrite.chain_kept.2]
      exact hmidHeight
  exact hall.1

theorem Recoverable.lateWrites {created : Set ContractRecord} (hrecoverable : index.Recoverable)
    (hindex : index.WellFormed hashing activation) (hinitial : Scope.Initial ⟨∅, created⟩)
    (hwrites : LateWrites hashing activation created index next) :
    next.Recoverable := by
  have hall : next.Recoverable ∧ next.WellFormed hashing activation := by
    induction hwrites with
    | refl => exact ⟨hrecoverable, hindex⟩
    | tail _ hwrite ih =>
      obtain ⟨height, hwrite⟩ := hwrite
      refine ⟨ih.1.write hwrite ih.2 hinitial ?_ ?_, ih.2.write hwrite⟩
      · exact fun hsome => absurd hsome Set.not_nonempty_empty
      · exact fun _ c hc => absurd hc (Set.notMem_empty c)
  exact hall.1

/-! ## Opening and unwinding a block -/

/-- A block whose transaction ids are new to the branch. -/
def NewTxids (index : Index) (delta : BlockDelta) : Prop :=
  ∀ (h : ℕ) (block : StoredBlock), index.chain.blocks[h]? = some block →
    h ≠ delta.anchor.height → ∀ txid ∈ delta.orderedTxids, txid ∉ block.orderedTxids

theorem NewTxids.noRepeatedTxid {delta : BlockDelta} (hnew : index.NewTxids delta)
    (hunique : NoRepeatedTxid index.chain.blocks) :
    NoRepeatedTxid (index.openBlock hashing delta).chain.blocks := by
  intro h h' block block' txid hblock hblock' hmem hmem'
  simp only [Index.openBlock, Table.row_insert] at hblock hblock'
  split at hblock
  · next hat =>
    cases hblock
    split at hblock'
    · next hat' => exact hat ▸ hat'
    · next hne =>
      exact absurd hmem' (hnew h' block' hblock' (Ne.symm hne) txid hmem)
  · next hne =>
    split at hblock'
    · cases hblock'
      exact absurd hmem (hnew h block hblock (Ne.symm hne) txid hmem')
    · exact hunique h h' block block' txid hblock hblock' hmem hmem'

theorem Recoverable.openBlock {delta : BlockDelta} (hrecoverable : index.Recoverable)
    (hheight : delta.anchor.height = index.chain.tip.height + 1) (hnew : index.NewTxids delta) :
    (index.openBlock hashing delta).Recoverable := by
  have htip : (index.openBlock hashing delta).chain.tip = delta.anchor := rfl
  have hretained : ∀ depth,
      (index.openBlock hashing delta).Retains (depth + 1) → index.Retains depth := by
    intro depth hretains i hi
    have hsome := hretains (i + 1) (by omega)
    rw [htip, hheight, Nat.add_sub_add_right] at hsome
    obtain ⟨undo, hundo⟩ := Option.isSome_iff_exists.mp hsome
    rcases undo_openBlock hundo with ⟨hat, -⟩ | ⟨-, hold⟩
    · omega
    · rw [hold]
      rfl
  refine ⟨hnew.noRepeatedTxid hrecoverable.unique, hrecoverable.outputs, ?_, ?_⟩
  · intro c depth record hretains hrecord
    rw [htip, hheight]
    cases depth with
    | zero =>
      have hproduced := hrecoverable.produced c 0 record
        (fun i hi => absurd hi (Nat.not_lt_zero i)) hrecord
      exact hproduced.mono (by omega)
    | succ depth =>
      rw [recordAt_openBlock hheight hretains] at hrecord
      have hproduced := hrecoverable.produced c depth record (hretained depth hretains) hrecord
      exact hproduced.mono (by omega)
  · intro c depth hretains hmem
    rw [htip, hheight] at hmem
    cases depth with
    | zero =>
      have hrow : (index.openBlock hashing delta).undoBlocks[ index.chain.tip.height + 1]? =
            some { previousTip := index.chain.tip } := by
        simp [Index.openBlock, hheight]
      rw [Nat.sub_zero, changesAt_of_row hrow] at hmem
      cases hmem
    | succ depth =>
      have hsome := hretains (depth + 1) (by omega)
      rw [htip, hheight, Nat.add_sub_add_right] at hsome
      rw [Nat.add_sub_add_right, changesAt_openBlock (by omega) hsome] at hmem
      rw [recordAt_openBlock hheight fun i hi => hretains i (by omega)]
      exact hrecoverable.live c depth (hretained (depth + 1) hretains) hmem

theorem OutputsComplete.unwind {undo : UndoBlock}
    (hcomplete : index.OutputsComplete) (hindex : index.WellFormed hashing activation)
    (hunique : NoRepeatedTxid index.chain.blocks)
    (hunwinds : index.Unwinds hashing next undo tables) :
    next.OutputsComplete := by
  obtain ⟨hretained, -, rfl⟩ := hunwinds
  intro position row hrow outpoint houtpoint
  simp only [ChainTables.undoRows, Table.row_eraseAll] at hrow ⊢
  split at hrow
  · cases hrow
  · next hnot =>
    rw [if_neg]
    · exact hcomplete position row hrow outpoint houtpoint
    · -- an output journalled at the tip belongs to a transaction of the tip
      intro hmem
      obtain ⟨-, ⟨block, hblock, hlists⟩, hjournalled⟩ :=
        hindex.placed.transactions position row hrow
      obtain ⟨top, htop, htxid⟩ := (hindex.placed.journal _ undo hretained).outputs outpoint hmem
      have hat := hunique _ _ block top outpoint.txid hblock htop
        (mem_txids_of_mem_allOutpoints hlists houtpoint) htxid
      exact hnot (hjournalled undo (hat ▸ hretained))

theorem Unwinds.producedBy {undo : UndoBlock} (hunwinds : index.Unwinds hashing next undo tables)
    (hindex : index.WellFormed hashing activation) {h : ℕ} (hbelow : h < index.chain.tip.height)
    (hproduced : index.chain.ProducedBy h record) :
    next.chain.ProducedBy h record := by
  obtain ⟨hretained, -, rfl⟩ := hunwinds
  have hlocal := hindex.placed.journal _ undo hretained
  obtain ⟨position, row, hrow, hle, houtputs, hstate⟩ := hproduced
  refine ⟨position, row, ?_, hle, houtputs, ?_⟩
  · simp only [ChainTables.undoRows, Table.row_eraseAll]
    rw [if_neg]
    · exact hrow
    · intro hmem
      have hat := hlocal.transactions position hmem
      omega
  · refine hstate.imp_right ?_
    rintro ⟨entry, hentry, hnew⟩
    refine ⟨entry, ?_, hnew⟩
    simp only [ChainTables.undoRows, Table.row_eraseAll]
    rw [if_neg]
    · exact hentry
    · intro hmem
      obtain ⟨key, hkey, heq⟩ := List.mem_map.mp hmem
      have hsame : key.2 = position := (Prod.mk.injEq _ _ _ _).mp heq |>.2
      have hat := hlocal.history key hkey
      rw [hsame] at hat
      omega

theorem Recoverable.unwind {undo : UndoBlock}
    (hrecoverable : index.Recoverable) (hindex : index.WellFormed hashing activation)
    (hunwinds : index.Unwinds hashing next undo tables) : next.Recoverable := by
  have hrecords : ∀ c depth,
      next.recordAt c depth = index.recordAt c (depth + 1) :=
    fun c depth => recordAt_unwind hindex hunwinds depth
  have houtputs := hrecoverable.outputs.unwind hindex hrecoverable.unique hunwinds
  obtain ⟨-, hbelow⟩ := hindex.linked.unwind hunwinds
  have hrows : ∀ h, h ≠ index.chain.tip.height →
      next.undoBlocks[h]? = index.undoBlocks[h]? := by
    intro h hne
    rw [hunwinds.next]
    simp [Ne.symm hne]
  have hretains : ∀ depth, next.Retains depth → index.Retains (depth + 1) := by
    intro depth hretains i hi
    cases i with
    | zero =>
      rw [Nat.sub_zero, hunwinds.retained]
      rfl
    | succ i =>
      have hsome := hretains i (by omega)
      rw [hrows _ (by omega)] at hsome
      rwa [← hbelow, Nat.add_sub_add_right]
  refine ⟨?_, houtputs, ?_, ?_⟩
  · intro h h' block block' txid hblock hblock'
    rw [hunwinds.next] at hblock hblock'
    simp only [Table.row_erase] at hblock hblock'
    split at hblock
    · cases hblock
    · split at hblock'
      · cases hblock'
      · exact hrecoverable.unique h h' block block' txid hblock hblock'
  · intro c depth record hdepth hrecord
    rw [hrecords] at hrecord
    have hproduced := hrecoverable.produced c (depth + 1) record (hretains depth hdepth) hrecord
    rw [← hbelow, Nat.add_sub_add_right] at hproduced
    exact hunwinds.producedBy hindex (by omega) hproduced
  · intro c depth hdepth hmem
    rw [hrecords]
    apply hrecoverable.live c (depth + 1) (hretains (depth + 1) hdepth)
    rw [← hbelow, Nat.add_sub_add_right]
    have hsame : index.changesAt (next.chain.tip.height - depth) =
        next.changesAt (next.chain.tip.height - depth) := by
      rw [changesAt, changesAt, hrows _ (by omega)]
    rw [hsame]
    exact hmem

/-- No transaction id is repeated, new contracts are in their first state, and
a block is backfilled only for contracts without an image in a newer undo row, if
its own undo row is retained. -/
def inOrder : Conditions where
  extend index delta := index.NewTxids delta ∧ delta.scope.Initial
  backfill := ClearAbove
  register created := Scope.Initial ⟨∅, created⟩

theorem Recoverable.step {anchor : ChainAnchor} (hrecoverable : index.Recoverable)
    (hindex : index.WellFormed hashing anchor.height)
    (hstep : Index.Step hashing anchor inOrder index next) :
    next.Recoverable := by
  cases hstep with
  | applyBlock delta hheight hshaped hextend hwrites =>
    have hopen := hindex.openBlock hheight hshaped
    refine (hrecoverable.openBlock hheight hextend.1).writes hextend.2 hopen le_rfl ?_ hwrites
    intro _ c _ h habove
    rw [hopen.linked.changesAt_above habove]
    simp
  | backfill height touched hclear hheight hwrites =>
    have hinitial : Scope.Initial ⟨touched, ∅⟩ := fun _ hnone => absurd hnone (Set.notMem_empty _)
    exact hrecoverable.writes hinitial hindex hheight hclear hwrites
  | register created hinitial hwrites => exact hrecoverable.lateWrites hindex hinitial hwrites
  | unwind hunwound =>
    obtain ⟨undo, tables, hunwinds⟩ := hunwound
    exact hrecoverable.unwind hindex hunwinds
  | reset => exact recoverable_atAnchor anchor

theorem Recoverable.steps {anchor : ChainAnchor} (hrecoverable : index.Recoverable)
    (hindex : index.WellFormed hashing anchor.height)
    (hsteps : Relation.ReflTransGen (Index.Step hashing anchor inOrder) index next) :
    next.Recoverable := by
  induction hsteps with
  | refl => exact hrecoverable
  | tail hprevious hstep ih =>
    exact ih.step (hindex.steps hprevious) hstep

end Index

/-! ## Runs -/

/-- The outputs and the state of a contract are those of the indexed branch. -/
structure ChainTables.Accounts (chain : ChainTables) (record : ContractRecord) : Prop where
  outpoints : ∀ tracked ∈ record.outpoints, ∃ ref row block,
    chain.outputs[tracked.outpoint]? = some ref ∧ chain.transactions[ref.position]? = some row ∧
      row.txid = tracked.outpoint.txid ∧
      ref.position.blockHeight ≤ chain.tip.height ∧
      chain.blocks[ref.position.blockHeight]? = some block ∧ row.blockHash = block.anchor.hash
  state : chain.ProducedBy chain.tip.height record

theorem Index.Recoverable.accounts {hashing : Hashing} {activation : ℕ}
    {index : Index} (hrecoverable : index.Recoverable)
    (hindex : index.WellFormed hashing activation) {c : ContractId}
    (hrecord : index.chain.contractTables.contracts[c]? = some record) :
    index.chain.Accounts record := by
  have hproduced :=
    hrecoverable.produced c 0 record (fun i hi => absurd hi (Nat.not_lt_zero i)) hrecord
  refine ⟨?_, hproduced⟩
  obtain ⟨position, row, hrow, hle, houtputs, -⟩ := hproduced
  obtain ⟨-, ⟨block, hblock, hlists⟩, -⟩ := hindex.placed.transactions position row hrow
  intro tracked htracked
  have hmem := houtputs tracked htracked
  refine ⟨⟨position, tracked.outpoint⟩, row, block,
    hrecoverable.outputs position row hrow _ hmem, hrow, ?_, by simpa using hle,
    hblock, hlists.hash⟩
  obtain ⟨vout, -, heq⟩ := List.mem_map.mp hmem
  rw [← heq]

/-- The conditions of an ordered run, asked of an operation.  A backfill which
was applied before writes nothing. -/
def Store.InOrder (hashing : Hashing) (store : Store) : StoreOperation → Prop
  | .applyBlock delta => Index.inOrder.extend store.index delta
  | .registerContracts registrations =>
    Index.inOrder.register {record | record ∈ registrations.map Prod.fst}
  | .applyBackfillBlock contractIds delta => ∀ result next,
    store.applyBackfillBlock hashing contractIds delta = .ok (result, next) →
      result.applied = true →
        Index.inOrder.backfill store.index delta.anchor.height {c | c ∈ contractIds}
  | _ => True

variable {store : Store}

theorem Store.ReachableBy.recoverable {hashing : Hashing}
    (hreachable : store.ReachableBy hashing (InOrder hashing)) :
    store.index.Recoverable := by
  induction hreachable with
  | initial anchor epoch => exact Index.recoverable_atAnchor anchor
  | @step store next operation hstore hallowed hperform ih =>
    have hindex := hstore.wellFormed
    obtain ⟨hsteps, -⟩ := perform_steps Index.inOrder hindex
      (by rintro delta write rfl -; exact hallowed)
      (by rintro contractIds delta result rfl; exact hallowed result next)
      (by rintro registrations rfl; exact hallowed) hperform
    exact ih.steps hindex hsteps

/-- In every run whose operations keep the order, every tracked output and the
state of every contract belong to the indexed branch. -/
theorem Store.tracked_outpoints_indexed {hashing : Hashing} {store : Store}
    (hreachable : store.ReachableBy hashing (InOrder hashing)) {c : ContractId}
    {record : ContractRecord}
    (hrecord : store.chain.contractTables.contracts[c]? = some record) :
    store.chain.Accounts record :=
  hreachable.recoverable.accounts hreachable.wellFormed hrecord

/-! ## Runs of an interpreted chain -/

/-- What the node does next: index a block, replay one for the cursors at it,
register markets or take blocks back. -/
inductive ChainStep where
  | index (fetched : FetchedBlock)
  | backfill (fetched : FetchedBlock)
  | register (registrations : List Registration)
  | rollback (ancestor : ChainAnchor)

section

variable {ε : Type} (hashing : Hashing) (interpreter : ChainInterpreter ε)

/-- The call of a step, with the delta the interpreter produces for its block. -/
def ChainStep.operation (store : Store) : ChainStep → Except (SyncError ε) StoreOperation
  | .index fetched => do
    let delta ← interpretCanonicalBlock hashing interpreter store fetched
    return .applyBlock delta
  | .backfill fetched => do
    let pending ← store.pendingBackfills.mapError .store
    let batch := pending.filter fun item => item.nextPosition.blockHeight = fetched.anchor.height
    let delta ← interpretBackfillBlock hashing interpreter store fetched batch
    return .applyBackfillBlock (batch.map BackfillProgress.contractId) delta
  | .register registrations => .ok (.registerContracts registrations)
  | .rollback ancestor => .ok (.rollbackTo ancestor 0)

def Store.Interprets (store : Store) (operation : StoreOperation) : Prop :=
  ∃ step : ChainStep, step.operation hashing interpreter store = .ok operation

/-- Take steps one after the other, each of which must pass a test. -/
def Store.follow (test : Store → StoreOperation → Bool) (store : Store)
    (steps : List ChainStep) : Except (SyncError ε) Store :=
  steps.foldlM (fun store step => do
    let operation ← step.operation hashing interpreter store
    require (test store operation) .counterOverflow
    (store.perform hashing operation).mapError .store) store

variable {hashing interpreter}

theorem Store.follow_reachable {test : Store → StoreOperation → Bool} {next : Store}
    {allowed : Store → StoreOperation → Prop} {steps : List ChainStep}
    (hallowed : ∀ store operation, store.Interprets hashing interpreter operation →
      test store operation = true → allowed store operation)
    (hstore : store.ReachableBy hashing allowed)
    (hfollow : store.follow hashing interpreter test steps = .ok next) :
    next.ReachableBy hashing allowed := by
  refine foldlM_invariant (fun store : Store => store.ReachableBy hashing allowed) ?_ steps
    hstore hfollow
  intro store step next hstore hstep
  simp only [bind_eq_ok, require_eq_ok, mapError_eq_ok] at hstep
  obtain ⟨operation, hoperation, -, htest, hperform⟩ := hstep
  exact .step hstore (hallowed store operation ⟨step, hoperation⟩ htest) hperform

end

def Store.inOrderTest (store : Store) : StoreOperation → Bool
  | .applyBlock delta => decide ((∀ row ∈ store.chain.blocks.toList,
      row.1 ≠ delta.anchor.height → ∀ txid ∈ delta.orderedTxids, txid ∉ row.2.orderedTxids) ∧
    ∀ transaction ∈ delta.relevantTransactions, ∀ record ∈ transaction.createdContracts,
      record.state = .trading 0)
  | .registerContracts registrations =>
    decide (∀ record ∈ registrations.map Prod.fst, record.state = .trading 0)
  | .applyBackfillBlock contractIds delta => decide (∀ row ∈ store.undoBlocks.toList,
      delta.anchor.height < row.1 → ∀ c ∈ contractIds,
        c ∉ row.2.contractChanges.map ContractUndo.contractId)
  | _ => true

theorem Store.inOrder_of_test {hashing : Hashing} {operation : StoreOperation}
    (htest : store.inOrderTest operation = true) : store.InOrder hashing operation := by
  cases operation with
  | applyBlock delta =>
    obtain ⟨hnew, hinitial⟩ := of_decide_eq_true htest
    refine ⟨fun h block hblock => hnew _ (Table.mem_toList_iff.mpr hblock), ?_⟩
    rintro record ⟨transaction, htransaction, hrecord⟩
    exact hinitial transaction htransaction record hrecord
  | registerContracts registrations =>
    have hinitial : ∀ record ∈ registrations.map Prod.fst, record.state = .trading 0 :=
      of_decide_eq_true htest
    exact hinitial
  | applyBackfillBlock contractIds delta =>
    intro _ _ _ _ _ c hc h habove
    cases hrow : store.index.undoBlocks[h]? with
    | none => simp [Index.changesAt_of_none hrow]
    | some undo =>
      rw [Index.changesAt_of_row hrow]
      exact of_decide_eq_true htest (h, undo) (Table.mem_toList_iff.mpr hrow) habove c hc
  | _ => trivial

/-! ## A backfill out of order -/

def sampleInterpreter : ChainInterpreter NodeInterpretError :=
  DeadcatInterpreter.interpretTransaction sampleCrypto sampleCodec ⟨.elementsRegtest, 1⟩

def sampleBlock (height : ℕ) (txdata : List Transaction) : FetchedBlock where
  anchor := ⟨height, 100 + height⟩
  block := ⟨{ height, prevBlockhash := 99 + height, merkleRoot := 0 }, txdata⟩

def creationBlock : FetchedBlock := sampleBlock 1 [creationTransaction]

def unrelatedBlock : FetchedBlock :=
  sampleBlock 2 [{ lockTime := 12, input := [], output := [] }]

def issueBlock : FetchedBlock := sampleBlock 3 [issueTransaction]

def sampleContract : ContractId := ⟨⟨11, 0⟩⟩

def sampleRegistration : Registration :=
  (createdMarket sampleCrypto sampleParams sampleContract ⟨1, 0⟩ ⟨1, 101⟩
    ⟨11, 0⟩ ⟨11, 1⟩, ⟨⟨1, 101⟩, creationTransaction, none⟩)

def sampleRun (test : Store → StoreOperation → Bool) (steps : List ChainStep) :
    Except (SyncError NodeInterpretError) Store :=
  (Store.initial sampleAnchor 0).follow sampleCrypto.toHashing sampleInterpreter test steps

/-- The next block spends the creation outputs while the market is catching up,
and the first two blocks are replayed only then.  The market keeps the outputs of
a block which was taken back. -/
theorem rollback_keeps_orphaned_outpoints :
    ∃ (store : Store) (record : ContractRecord) (tracked : TrackedOutpoint),
      store.ReachableBy sampleCrypto.toHashing
          (Store.Interprets sampleCrypto.toHashing sampleInterpreter) ∧
        store.chain.contractTables.contracts[sampleContract]? = some record ∧
        record.state = .trading 5 ∧ tracked ∈ record.outpoints ∧
        store.chain.outputs[tracked.outpoint]? = none ∧
        store.chain.contractHistory.toList = [] := by
  have hrun : isOkAnd (sampleRun (fun _ _ => true) [.index creationBlock, .index unrelatedBlock,
      .register [sampleRegistration], .index issueBlock, .backfill creationBlock,
      .backfill unrelatedBlock, .rollback ⟨1, 101⟩]) (fun store =>
      (store.chain.contractTables.contracts[sampleContract]?).any fun record =>
        decide (record.state = .trading 5 ∧ ⟨2, ⟨13, 0⟩⟩ ∈ record.outpoints ∧
          store.chain.outputs[(⟨13, 0⟩ : OutPoint)]? = none ∧
          (store.chain.contractHistory.toList.map Prod.fst) = [])) = true := by
    decide +kernel
  obtain ⟨store, hstore, htest⟩ := isOkAnd_iff.mp hrun
  obtain ⟨record, hrecord, hfound⟩ := (Option.any_eq_true _ _).mp htest
  obtain ⟨hstate, htracked, hlost, hhistory⟩ := of_decide_eq_true hfound
  have hreachable := Store.follow_reachable (fun _ _ hinterprets _ => hinterprets)
    (.initial _ _) hstore
  exact ⟨store, record, _, hreachable, hrecord, hstate, htracked, hlost,
    List.map_eq_nil_iff.mp hhistory⟩

/-- A market which is caught up before its outputs are spent goes back to its
creation when the spend is taken back. -/
theorem tracked_outpoints_indexed_restored :
    ∃ (store : Store) (record : ContractRecord),
      sampleRun Store.inOrderTest [.index creationBlock, .register [sampleRegistration],
        .backfill creationBlock, .index unrelatedBlock, .index issueBlock,
        .rollback ⟨2, 102⟩] = .ok store ∧
      store.chain.contractTables.contracts[sampleContract]? = some record ∧
      record.syncState.isCatchingUp = false ∧
      record.outpoints = [⟨0, ⟨11, 0⟩⟩, ⟨1, ⟨11, 1⟩⟩] ∧ store.chain.Accounts record := by
  have hrun : isOkAnd (sampleRun Store.inOrderTest [.index creationBlock,
      .register [sampleRegistration], .backfill creationBlock, .index unrelatedBlock,
      .index issueBlock, .rollback ⟨2, 102⟩]) (fun store =>
      (store.chain.contractTables.contracts[sampleContract]?).any fun record =>
        decide (record.syncState.isCatchingUp = false ∧
          record.outpoints = [⟨0, ⟨11, 0⟩⟩, ⟨1, ⟨11, 1⟩⟩])) = true := by
    decide +kernel
  obtain ⟨store, hstore, htest⟩ := isOkAnd_iff.mp hrun
  obtain ⟨record, hrecord, hfound⟩ := (Option.any_eq_true _ _).mp htest
  obtain ⟨hready, houtpoints⟩ := of_decide_eq_true hfound
  have hreachable : store.ReachableBy sampleCrypto.toHashing
      (Store.InOrder sampleCrypto.toHashing) :=
    Store.follow_reachable (fun _ _ _ htest => Store.inOrder_of_test htest) (.initial _ _) hstore
  exact ⟨store, record, hstore, hrecord, hready, houtpoints,
    Store.tracked_outpoints_indexed hreachable hrecord⟩

end DeadcatNode
