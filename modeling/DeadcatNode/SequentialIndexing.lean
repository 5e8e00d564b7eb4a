import DeadcatNode.OverlayAgreement

/-!
# One transaction at a time

The coordinator interprets a whole block before anything is written.  Here the
transactions of a block are interpreted and written one after the other, each
against the tables which the earlier ones have left; both ways find the same
batches.
-/

namespace DeadcatNode

open Checked

variable {chain : ChainTables} {hashing : Hashing}

/-! ## One transaction at a time -/

section Sequential

variable {ε : Type} (hashing : Hashing)

/-- Interpret one transaction against the tables written so far, without any
overlay, and write what was found. -/
def Store.indexTransaction (interpreter : ChainInterpreter ε) (store : Store)
    (anchor : ChainAnchor) (acc : BlockWrite × BlockInterpretation) (entry : Transaction × ℕ) :
    Except (SyncError ε) (BlockWrite × BlockInterpretation) := do
  let position ← blockPosition anchor entry.2
  let interpreted ← (interpreter {
    store := { store with chain := acc.1.chain }
    anchor
    position
    priorTransactions := []
    retainedDeclarations := store.retainedDeclarationsForTransaction (hashing.txid entry.1)
    mode := .canonical } entry.1).mapError .interpretation
  let found ← appendInterpretation hashing anchor position entry.1 true
    { recoveryHints := acc.2.recoveryHints } interpreted
  let write ← (found.relevantTransactions.foldlM
    (BlockWrite.applyChainTransaction hashing anchor) acc.1).mapError .store
  return (write, {
    relevantTransactions := acc.2.relevantTransactions ++ found.relevantTransactions
    recoveryHints := found.recoveryHints })

def BlockInterpretation.toDelta (fetched : FetchedBlock)
    (found : BlockInterpretation) : BlockDelta where
  anchor := fetched.anchor
  prevBlockHash := fetched.block.header.prevBlockhash
  orderedTxids := fetched.block.txdata.map hashing.txid
  relevantTransactions := found.relevantTransactions
  recoveryHints := found.recoveryHints.insertionSort fun hint hint' =>
    hint.location ≤ hint'.location

/-- Index a block one transaction at a time; its hints, the waiting contracts
and the block row follow at the end. -/
def Store.indexSequentially (interpreter : ChainInterpreter ε) (store : Store)
    (fetched : FetchedBlock) : Except (SyncError ε) Store := do
  let (write, found) ← fetched.block.txdata.zipIdx.foldlM
    (store.indexTransaction hashing interpreter fetched.anchor) (store.startBlock, {})
  let delta := found.toDelta hashing fetched
  let write ← (delta.recoveryHints.foldlM BlockWrite.insertRecoveryHint write).mapError .store
  let write ← (write.advanceCatchingThroughCanonicalBlock hashing delta
    (hashing.digest delta)).mapError .store
  return store.commitBlock hashing delta write

end Sequential

/-! ## Shapes -/

structure ChainTxDelta.Stands (hashing : Hashing) (fetched : FetchedBlock)
    (transaction : ChainTxDelta) : Prop where
  height : transaction.position.blockHeight = fetched.anchor.height
  hash : transaction.blockHash = fetched.anchor.hash
  listed : fetched.block.txdata[transaction.position.txIndex]? = some transaction.rawTx
  txid : transaction.txid = hashing.txid transaction.rawTx
  created : ∀ contract ∈ transaction.createdContracts, contract.CreatedBy hashing transaction
  ids : (transaction.createdContracts.map ContractRecord.contractId ++
    transaction.stateUpdates.map StateUpdate.contractId).Nodup
  outputCount : transaction.rawTx.output.length < 2 ^ 32

section Shapes

variable {hashing : Hashing} {fetched : FetchedBlock} {transaction : ChainTxDelta}

theorem validateCreatedContracts_of_createdBy {contracts : List ContractRecord}
    (hcreated : ∀ contract ∈ contracts, contract.CreatedBy hashing transaction)
    {seen : List ContractId} (hids : (seen ++ contracts.map ContractRecord.contractId).Nodup) :
    ∃ seen', contracts.foldlM (validateCreatedContract hashing transaction)
        seen = .ok seen' ∧ seen'.Perm (seen ++ contracts.map ContractRecord.contractId) := by
  induction contracts generalizing seen with
  | nil => exact ⟨seen, rfl, by simp⟩
  | cons contract rest ih =>
    have hfirst := hcreated contract List.mem_cons_self
    have hnew : contract.contractId ∉ seen := by
      intro hmem
      exact (List.nodup_append.mp hids).2.2 _ hmem _ List.mem_cons_self rfl
    have hstep : validateCreatedContract hashing transaction seen contract =
        .ok (contract.contractId :: seen) := by
      simp only [validateCreatedContract, bind_eq_ok, require_eq_ok,
        ContractTables.validate_eq_ok, pure_eq_ok]
      exact ⟨(), ⟨hfirst.position, hfirst.txid, hnew⟩, (), hfirst.anchor, (),
        hfirst.tracked, (), hfirst.valid, trivial⟩
    have hperm : (contract.contractId :: seen ++ rest.map ContractRecord.contractId).Perm
        (seen ++ (contract :: rest).map ContractRecord.contractId) :=
      List.perm_middle.symm
    obtain ⟨seen', hrest, hperm'⟩ := ih
      (fun other hother => hcreated other (List.mem_cons_of_mem _ hother))
      (hperm.nodup_iff.mpr hids)
    refine ⟨seen', ?_, hperm'.trans hperm⟩
    rw [List.foldlM_cons, hstep, ok_bind, hrest]

theorem validateUpdateLegs_of_nodup {updates : List StateUpdate} {seen : List ContractId}
    (hids : (seen ++ updates.map StateUpdate.contractId).Nodup) :
    ∃ seen', updates.foldlM validateUpdateLeg seen = .ok seen' := by
  induction updates generalizing seen with
  | nil => exact ⟨seen, rfl⟩
  | cons update rest ih =>
    have hnew : update.contractId ∉ seen := by
      intro hmem
      exact (List.nodup_append.mp hids).2.2 _ hmem _ List.mem_cons_self rfl
    have hstep : validateUpdateLeg seen update = .ok (update.contractId :: seen) := by
      simp only [validateUpdateLeg, bind_eq_ok, require_eq_ok, pure_eq_ok]
      exact ⟨(), hnew, trivial⟩
    have hperm : (update.contractId :: seen ++ rest.map StateUpdate.contractId).Perm
        (seen ++ (update :: rest).map StateUpdate.contractId) :=
      List.perm_middle.symm
    obtain ⟨seen', hrest⟩ := ih (hperm.nodup_iff.mpr hids)
    refine ⟨seen', ?_⟩
    rw [List.foldlM_cons, hstep, ok_bind, hrest]

theorem ChainTxDelta.Stands.validateTransactionShape
    (hstands : transaction.Stands hashing fetched) {delta : BlockDelta}
    (hanchor : delta.anchor = fetched.anchor)
    (htxids : delta.orderedTxids = fetched.block.txdata.map hashing.txid) :
    DeadcatNode.validateTransactionShape hashing delta transaction = .ok () := by
  obtain ⟨seen, hseen, hperm⟩ :=
    @validateCreatedContracts_of_createdBy _ _ _ hstands.created []
      (List.nodup_append.mp hstands.ids).1
  have hlegs : (seen ++ transaction.stateUpdates.map StateUpdate.contractId).Nodup :=
    (hperm.append_right _).nodup_iff.mpr hstands.ids
  obtain ⟨seen', hseen'⟩ := validateUpdateLegs_of_nodup hlegs
  simp only [DeadcatNode.validateTransactionShape, bind_eq_ok, require_eq_ok, pure_eq_ok]
  refine ⟨(), hstands.outputCount, (), ⟨?_, ?_, ?_, hstands.txid.symm⟩, seen,
    hseen, seen', hseen', trivial⟩
  · rw [hanchor, hstands.height]
  · rw [hanchor, hstands.hash]
  · rw [htxids, List.getElem?_map, hstands.listed, hstands.txid]
    rfl

end Shapes

/-! ## What is appended -/

section Append

variable {ε : Type} {hashing : Hashing} {anchor : ChainAnchor}
  {position : ChainPosition} {transaction : Transaction}

structure HintsAt (hashing : Hashing) (position : ChainPosition)
    (transaction : Transaction) (hints : List RecoveryHintDelta) : Prop where
  place : ∀ hint ∈ hints, hint.location.position = position ∧
    hint.creationTxid = hashing.txid transaction
  nodup : (hints.map RecoveryHintDelta.location).Nodup

theorem appendHints_ok {hints : List InterpretedRecoveryHint}
    {old : List RecoveryHintDelta} {acc : List ℕ × List RecoveryHintDelta}
    (hfold : hints.foldlM (appendHint (ε := ε) hashing position transaction) ([], old) = .ok acc) :
    ∃ new, acc.2 = old ++ new ∧ HintsAt hashing position transaction new := by
  have hinv : ∃ new, acc.2 = old ++ new ∧ HintsAt hashing position transaction new ∧
      ∀ hint ∈ new, hint.location.outputIndex ∈ acc.1 := by
    refine foldlM_invariant (fun acc : List ℕ × List RecoveryHintDelta =>
      ∃ new, acc.2 = old ++ new ∧ HintsAt hashing position transaction new ∧
        ∀ hint ∈ new, hint.location.outputIndex ∈ acc.1) ?_ hints ?_ hfold
    · rintro acc hint acc' ⟨new, hacc, hnew, hseen⟩ hstep
      simp only [appendHint, bind_eq_ok, require_eq_ok, pure_eq_ok] at hstep
      obtain ⟨_, ⟨-, hfree⟩, rfl⟩ := hstep
      refine ⟨new ++ [{
        location := ⟨position, hint.outputIndex⟩
        creationTxid := hashing.txid transaction
        family := hint.family
        payload := hint.payload
        associatedContract := hint.associatedContract }], ?_, ⟨?_, ?_⟩, ?_⟩
      · rw [hacc, List.append_assoc]
      · intro other hother
        rcases List.mem_append.mp hother with hold | hlast
        · exact hnew.place other hold
        · rw [List.mem_singleton.mp hlast]
          exact ⟨rfl, rfl⟩
      · rw [List.map_append, List.nodup_append]
        refine ⟨hnew.nodup, List.nodup_singleton _, ?_⟩
        intro location hlocation location' hlocation' hsame
        obtain ⟨other, hother, rfl⟩ := List.mem_map.mp hlocation
        rw [List.map_singleton, List.mem_singleton] at hlocation'
        rw [hlocation'] at hsame
        have hindex : other.location.outputIndex = hint.outputIndex :=
          congrArg RecoveryHintLocation.outputIndex hsame
        exact hfree (hindex ▸ hseen other hother)
      · intro other hother
        rcases List.mem_append.mp hother with hold | hlast
        · exact List.mem_cons_of_mem _ (hseen other hold)
        · rw [List.mem_singleton.mp hlast]
          exact List.mem_cons_self
    · exact ⟨[], by simp, ⟨by simp, List.nodup_nil⟩, by simp⟩
  obtain ⟨new, hacc, hnew, -⟩ := hinv
  exact ⟨new, hacc, hnew⟩

def TransactionInterpretation.batch (hashing : Hashing) (anchor : ChainAnchor)
    (position : ChainPosition) (transaction : Transaction)
    (interpreted : TransactionInterpretation) : ChainTxDelta where
  position
  blockHash := anchor.hash
  txid := hashing.txid transaction
  rawTx := transaction
  createdContracts := interpreted.createdContracts
  stateUpdates := interpreted.stateUpdates

def TransactionInterpretation.batches (hashing : Hashing) (anchor : ChainAnchor)
    (position : ChainPosition) (transaction : Transaction)
    (interpreted : TransactionInterpretation) : List ChainTxDelta :=
  if interpreted.createdContracts = [] ∧ interpreted.stateUpdates = [] then []
  else [interpreted.batch hashing anchor position transaction]

theorem appendInterpretation_eq (found : BlockInterpretation)
    (interpreted : TransactionInterpretation) :
    appendInterpretation (ε := ε) hashing anchor position transaction true found
        interpreted = (fun acc => {
          relevantTransactions := found.relevantTransactions ++
            interpreted.batches hashing anchor position transaction
          recoveryHints := acc.2 }) <$> interpreted.recoveryHints.foldlM
            (appendHint hashing position transaction) ([], found.recoveryHints) := by
  simp only [appendInterpretation, if_true, TransactionInterpretation.batches,
    TransactionInterpretation.batch]
  cases interpreted.recoveryHints.foldlM (appendHint (ε := ε) hashing position transaction)
      ([], found.recoveryHints) with
  | error error => rfl
  | ok acc =>
    split <;> simp [Functor.map, Except.map, bind, Except.bind, pure, Except.pure]

end Append

/-! ## The block, transaction by transaction -/

def FetchedBlock.context (fetched : FetchedBlock) (store : Store)
    (found : BlockInterpretation) : InterpretationContext where
  store
  anchor := fetched.anchor
  position := ⟨fetched.anchor.height, 0⟩
  priorTransactions := found.relevantTransactions
  retainedDeclarations := []
  mode := .canonical

/-- The block up to some transactions which remain: what was found, and the
tables it was written to. -/
structure Indexing (crypto : MarketCrypto) (store : Store)
    (fetched : FetchedBlock) (remaining : List (Transaction × ℕ))
    (found : BlockInterpretation) (write : BlockWrite) : Prop where
  written : found.relevantTransactions.foldlM
    (BlockWrite.applyChainTransaction crypto.toHashing fetched.anchor) store.startBlock = .ok write
  overlay : Overlay crypto.toHashing (fetched.context store found) write.chain
  sequence : write.journal.sequence = store.journal.sequence + found.relevantTransactions.length
  recoveryHints : write.chain.recoveryHints = store.chain.recoveryHints
  backfillProgress : write.chain.backfillProgress = store.chain.backfillProgress
  contracts : ∀ c : ContractId, (store.chain.contractTables.contracts[c]?).isSome →
      (write.chain.contractTables.contracts[c]?).isSome
  fresh : ∀ entry ∈ remaining, write.chain.Fresh
    ⟨fetched.anchor.height, entry.2⟩ (crypto.txid entry.1)
  stands : ∀ transaction ∈ found.relevantTransactions, transaction.Stands crypto.toHashing fetched
  ordered : (found.relevantTransactions.map ChainTxDelta.position).Pairwise (· < ·)
  before : ∀ transaction ∈ found.relevantTransactions, ∀ entry ∈ remaining,
    transaction.position.txIndex < entry.2
  hints : ∀ hint ∈ found.recoveryHints, hint.location.position.blockHeight = fetched.anchor.height ∧
      (fetched.block.txdata.map crypto.txid)[
        hint.location.position.txIndex]? = some hint.creationTxid
  hintsNodup : (found.recoveryHints.map RecoveryHintDelta.location).Nodup
  hintsBefore : ∀ hint ∈ found.recoveryHints, ∀ entry ∈ remaining,
    hint.location.position.txIndex < entry.2

theorem Overlay.reposition {context : InterpretationContext}
    (hoverlay : Overlay hashing context chain)
    (position : ChainPosition) (declarations : List ContractDeclaration) :
    Overlay hashing { context with
      position
      retainedDeclarations := declarations } chain :=
  ⟨hoverlay.exact, hoverlay.refs, hoverlay.tip, hoverlay.agrees.owners,
    hoverlay.agrees.contracts, hoverlay.agrees.outputs⟩

theorem ChainTables.Fresh.written
    {next : ChainTables} {delta : ChainTxDelta} {position : ChainPosition} {txid : Txid}
    (hfresh : chain.Fresh position txid) (hexact : chain.contractTables.Exact hashing)
    (hfits : delta.Fits hashing chain) (hwritten : chain.WrittenBy hashing delta next)
    (hposition : delta.position ≠ position) (htxid : delta.txid ≠ txid) :
    next.Fresh position txid := by
  obtain ⟨affected, htransactions⟩ := hwritten.transactions
  refine ⟨?_, ?_, ?_, ?_⟩
  · rw [htransactions, Table.row_insert, if_neg hposition]
    exact hfresh.transaction
  · intro c
    rw [hwritten.history (historyKey c position) (Ne.symm hposition)]
    exact hfresh.history c
  · intro outpoint houtpoint
    by_contra hsome
    obtain ⟨ref, href⟩ := Option.ne_none_iff_exists'.mp hsome
    rcases (hwritten.output_iff outpoint ref).mp href with ⟨hmem, -⟩ | ⟨-, hold⟩
    · exact htxid (((mem_allOutpoints_iff outpoint).mp hmem).1.symm.trans houtpoint)
    · rw [hfresh.outputs outpoint houtpoint] at hold
      cases hold
  · intro outpoint houtpoint
    apply hwritten.exact.unowned
    intro c record hrecord tracked htracked hsame
    have hother : ∀ other : Txid, tracked.outpoint.txid = other → other = delta.txid → False := by
      intro other hfirst hsecond
      rw [hsame, houtpoint] at hfirst
      exact htxid (hfirst.trans hsecond).symm
    rcases hwritten.row_cases hrecord with
      ⟨update, hupdate, -, houtpoints⟩ | ⟨hcreated, -⟩ | ⟨hrow, -⟩
    · obtain ⟨_, _, hfollows⟩ := hfits.updates update hupdate
      rw [houtpoints] at htracked
      exact hother _ rfl (hfollows.created tracked htracked).1
    · exact hother _ rfl ((hfits.created record hcreated).2.2 tracked htracked).1
    · have howned := hexact.owned hrow htracked
      rw [hsame, hfresh.owners outpoint houtpoint] at howned
      cases howned

theorem ChainTables.WrittenBy.contracts_kept {next : ChainTables} {delta : ChainTxDelta}
    (hwritten : chain.WrittenBy hashing delta next) {c : ContractId}
    (hsome : (chain.contractTables.contracts[c]?).isSome) :
    (next.contractTables.contracts[c]?).isSome := by
  obtain ⟨record, hrecord⟩ := Option.isSome_iff_exists.mp hsome
  rw [hwritten.contracts, hrecord, rowAfterUpdates]
  have hcreations : (rowAfterCreations delta.createdContracts c (some record)).isSome := by
    simp [rowAfterCreations]
  split
  · rw [Option.isSome_map]
    exact hcreations
  · exact hcreations

section

variable (crypto : MarketCrypto) (codec : SimplicityCodec) (interpreter : DeadcatInterpreter)
  (store : Store) (fetched : FetchedBlock)

abbrev readStep := interpretCanonicalTransaction crypto.toHashing
  (DeadcatInterpreter.interpretTransaction crypto codec interpreter) store fetched.anchor

abbrev indexStep := store.indexTransaction crypto.toHashing
  (DeadcatInterpreter.interpretTransaction crypto codec interpreter) fetched.anchor

end

namespace Indexing

variable {crypto : MarketCrypto} {codec : SimplicityCodec}
  {interpreter : DeadcatInterpreter} {store : Store} {fetched : FetchedBlock}
  {rest : List (Transaction × ℕ)} {found found' : BlockInterpretation}
  {write : BlockWrite} {entry : Transaction × ℕ}

def contextAt (crypto : MarketCrypto) (store : Store) (fetched : FetchedBlock)
    (found : BlockInterpretation) (entry : Transaction × ℕ) :
    InterpretationContext :=
  { fetched.context store found with
    position := ⟨fetched.anchor.height, entry.2⟩
    retainedDeclarations := store.retainedDeclarationsForTransaction (crypto.txid entry.1) }

theorem interpretCanonicalTransaction_ok
    (hstep : readStep crypto codec interpreter store fetched found entry = .ok found') :
    ∃ interpreted new, entry.2 < 2 ^ 32 ∧
      DeadcatInterpreter.interpretTransaction crypto codec interpreter
        (contextAt crypto store fetched found entry) entry.1 = .ok interpreted ∧
      interpreted.recoveryHints.foldlM (appendHint (ε := NodeInterpretError) crypto.toHashing
          ⟨fetched.anchor.height, entry.2⟩ entry.1)
        ([], found.recoveryHints) = .ok new ∧
      found' = {
        relevantTransactions := found.relevantTransactions ++
          interpreted.batches crypto.toHashing fetched.anchor
            ⟨fetched.anchor.height, entry.2⟩ entry.1
        recoveryHints := new.2 } := by
  simp only [interpretCanonicalTransaction, blockPosition, bind_eq_ok,
    require_eq_ok, pure_eq_ok, mapError_eq_ok, appendInterpretation_eq, map_eq_ok] at hstep
  obtain ⟨_, ⟨_, hbound, rfl⟩, interpreted, hinterpreted, new, hnew, rfl⟩ := hstep
  exact ⟨interpreted, new, hbound, hinterpreted, hnew, rfl⟩

theorem stands_of_readFrom {interpreted : TransactionInterpretation}
    (hread : interpreted.ReadFrom crypto (contextAt crypto store fetched found entry) entry.1)
    (hlisted : fetched.block.txdata[entry.2]? = some entry.1)
    (hcount : entry.1.output.length < 2 ^ 32) :
    (interpreted.batch crypto.toHashing fetched.anchor
      ⟨fetched.anchor.height, entry.2⟩ entry.1).Stands crypto.toHashing
        fetched := by
  refine ⟨rfl, rfl, hlisted, rfl, ?_, hread.contracts, hcount⟩
  intro contract hcontract
  obtain ⟨hfound, -⟩ := hread.created contract hcontract
  exact ⟨hfound.position, hfound.txid, hfound.anchor, hfound.tracked, hfound.valid⟩

theorem hints_append (hindexing : Indexing crypto store fetched (entry :: rest) found write)
    (hlisted : fetched.block.txdata[entry.2]? = some entry.1)
    (hlater : ∀ other ∈ rest, entry.2 < other.2) {new : List RecoveryHintDelta}
    (hnew : HintsAt crypto.toHashing ⟨fetched.anchor.height, entry.2⟩ entry.1 new) :
    (∀ hint ∈ found.recoveryHints ++ new,
      hint.location.position.blockHeight = fetched.anchor.height ∧
        (fetched.block.txdata.map crypto.txid)[
          hint.location.position.txIndex]? = some hint.creationTxid) ∧
      ((found.recoveryHints ++ new).map RecoveryHintDelta.location).Nodup ∧
      ∀ hint ∈ found.recoveryHints ++ new, ∀ other ∈ rest,
        hint.location.position.txIndex < other.2 := by
  refine ⟨?_, ?_, ?_⟩
  · intro hint hhint
    rcases List.mem_append.mp hhint with hold | hlast
    · exact hindexing.hints hint hold
    · obtain ⟨hposition, htxid⟩ := hnew.place hint hlast
      rw [hposition, htxid, List.getElem?_map, hlisted]
      exact ⟨rfl, rfl⟩
  · rw [List.map_append, List.nodup_append]
    refine ⟨hindexing.hintsNodup, hnew.nodup, ?_⟩
    intro location hlocation location' hlocation' hsame
    obtain ⟨hint, hhint, rfl⟩ := List.mem_map.mp hlocation
    obtain ⟨hint', hhint', rfl⟩ := List.mem_map.mp hlocation'
    have hlow := hindexing.hintsBefore hint hhint entry List.mem_cons_self
    rw [hsame, (hnew.place hint' hhint').1] at hlow
    exact lt_irrefl _ hlow
  · intro hint hhint other hother
    rcases List.mem_append.mp hhint with hold | hlast
    · exact hindexing.hintsBefore hint hold other (List.mem_cons_of_mem _ hother)
    · rw [(hnew.place hint hlast).1]
      exact hlater other hother

theorem step (hslots : crypto.SlotsDistinct)
    (hindexing : Indexing crypto store fetched (entry :: rest) found write)
    (hlisted : fetched.block.txdata[entry.2]? = some entry.1)
    (hcount : entry.1.output.length < 2 ^ 32)
    (hlater : ∀ other ∈ rest, entry.2 < other.2 ∧ crypto.txid entry.1 ≠ crypto.txid other.1)
    (hroom : store.journal.sequence + found'.relevantTransactions.length < 2 ^ 64)
    (hstep : readStep crypto codec interpreter store fetched found entry = .ok found') :
    ∃ write', indexStep crypto codec interpreter store fetched (write, found) entry =
        .ok (write', found') ∧
      Indexing crypto store fetched rest found' write' := by
  obtain ⟨interpreted, acc, hbound, hinterpreted, hacc, rfl⟩ :=
    interpretCanonicalTransaction_ok hstep
  obtain ⟨new, hnew, hhints⟩ := appendHints_ok hacc
  have hoverlay : Overlay crypto.toHashing
      (contextAt crypto store fetched found entry) write.chain :=
    hindexing.overlay.reposition _ _
  have hread := interpretTransaction_ok hslots hoverlay.keyed rfl hinterpreted
  have hagain : DeadcatInterpreter.interpretTransaction crypto codec interpreter
      ((contextAt crypto store fetched found entry).against
        { store with chain := write.chain }) entry.1 = .ok interpreted := by
    rw [← hinterpreted]
    exact (hoverlay.agrees.interpretTransaction_eq hread.unspent).symm
  have hsequential : ∀ write', (interpreted.batches crypto.toHashing fetched.anchor
        ⟨fetched.anchor.height, entry.2⟩ entry.1).foldlM
          (BlockWrite.applyChainTransaction crypto.toHashing fetched.anchor)
          write = .ok write' →
      indexStep crypto codec interpreter store fetched (write, found) entry = .ok (write', {
          relevantTransactions := found.relevantTransactions ++
            interpreted.batches crypto.toHashing fetched.anchor
              ⟨fetched.anchor.height, entry.2⟩ entry.1
          recoveryHints := acc.2 }) := by
    intro write' hwrite'
    simp only [Store.indexTransaction, blockPosition, bind_eq_ok, require_eq_ok,
      pure_eq_ok, mapError_eq_ok, appendInterpretation_eq, map_eq_ok]
    exact ⟨_, ⟨(), hbound, rfl⟩, interpreted, hagain, _, ⟨acc, hacc, rfl⟩, write', hwrite', rfl⟩
  obtain ⟨hhintPlaces, hhintNodup, hhintBefore⟩ := hindexing.hints_append hlisted
    (fun other hother => (hlater other hother).1) hhints
  rw [← hnew] at hhintPlaces hhintNodup hhintBefore
  have hkeptBefore : ∀ transaction ∈ found.relevantTransactions,
      ∀ other ∈ rest, transaction.position.txIndex < other.2 :=
    fun transaction htransaction other hother => hindexing.before transaction
      htransaction other (List.mem_cons_of_mem _ hother)
  have hkeptFresh : ∀ other ∈ rest, write.chain.Fresh
      ⟨fetched.anchor.height, other.2⟩ (crypto.txid other.1) :=
    fun other hother => hindexing.fresh other (List.mem_cons_of_mem _ hother)
  unfold TransactionInterpretation.batches at hsequential hroom ⊢
  split at hsequential
  · next hempty =>
    rw [if_pos hempty, List.append_nil] at hroom ⊢
    rw [List.append_nil] at hsequential
    exact ⟨write, hsequential write rfl, hindexing.written, hindexing.overlay,
      hindexing.sequence, hindexing.recoveryHints, hindexing.backfillProgress,
      hindexing.contracts, hkeptFresh, hindexing.stands, hindexing.ordered,
      hkeptBefore, hhintPlaces, hhintNodup, hhintBefore⟩
  · next hfound =>
    rw [if_neg hfound] at hroom ⊢
    rw [List.length_append, List.length_singleton] at hroom
    have hfits : (interpreted.batch crypto.toHashing fetched.anchor
        ⟨fetched.anchor.height, entry.2⟩ entry.1).Fits crypto.toHashing write.chain :=
      hoverlay.fits hread fetched.anchor.hash (hindexing.fresh entry List.mem_cons_self) hcount
    obtain ⟨write', happly, hsequence, hwritten⟩ :=
      hfits.applyChainTransaction hoverlay.exact rfl fetched.anchor
        (show write.journal.sequence + 1 < 2 ^ 64 by
          rw [hindexing.sequence]
          omega)
    have hsingle : [interpreted.batch crypto.toHashing fetched.anchor
        ⟨fetched.anchor.height, entry.2⟩ entry.1].foldlM
        (BlockWrite.applyChainTransaction crypto.toHashing fetched.anchor) write = .ok write' := by
      rw [List.foldlM_cons, happly]
      rfl
    refine ⟨write', hsequential write' hsingle, ?_⟩
    constructor
    case written =>
      rw [List.foldlM_append, hindexing.written]
      exact hsingle
    case overlay => exact hindexing.overlay.extend hfits hwritten
    case sequence =>
      rw [hsequence, hindexing.sequence, List.length_append]
      rfl
    case recoveryHints =>
      exact hwritten.recoveryHints.trans hindexing.recoveryHints
    case backfillProgress =>
      exact hwritten.backfillProgress.trans hindexing.backfillProgress
    case contracts =>
      intro c hc
      exact hwritten.contracts_kept (hindexing.contracts c hc)
    case fresh =>
      intro other hother
      obtain ⟨hindex, htxid⟩ := hlater other hother
      refine (hkeptFresh other hother).written hoverlay.exact hfits hwritten ?_ htxid
      intro hsame
      have hsameIndex : entry.2 = other.2 := congrArg ChainPosition.txIndex hsame
      omega
    case stands =>
      intro transaction htransaction
      rcases List.mem_append.mp htransaction with hold | hlast
      · exact hindexing.stands transaction hold
      · rw [List.mem_singleton.mp hlast]
        exact stands_of_readFrom hread hlisted hcount
    case ordered =>
      rw [List.map_append, List.pairwise_append]
      refine ⟨hindexing.ordered, List.pairwise_singleton _ _, ?_⟩
      intro position hposition position' hposition'
      obtain ⟨transaction, htransaction, rfl⟩ := List.mem_map.mp hposition
      rw [List.map_singleton, List.mem_singleton] at hposition'
      rw [hposition', ChainPosition.lt_iff]
      refine .inr ⟨(hindexing.stands transaction htransaction).height, ?_⟩
      exact hindexing.before transaction htransaction entry List.mem_cons_self
    case before =>
      intro transaction htransaction other hother
      rcases List.mem_append.mp htransaction with hold | hlast
      · exact hkeptBefore transaction hold other hother
      · rw [List.mem_singleton.mp hlast]
        exact (hlater other hother).1
    case hints => exact hhintPlaces
    case hintsNodup => exact hhintNodup
    case hintsBefore => exact hhintBefore

theorem relevant_le
    (hstep : readStep crypto codec interpreter store fetched found entry = .ok found') :
    found.relevantTransactions.length ≤ found'.relevantTransactions.length := by
  obtain ⟨interpreted, acc, -, -, -, rfl⟩ := interpretCanonicalTransaction_ok hstep
  simp

theorem relevant_le_run {entries : List (Transaction × ℕ)}
    (hrun : entries.foldlM (readStep crypto codec interpreter store fetched) found = .ok found') :
    found.relevantTransactions.length ≤ found'.relevantTransactions.length := by
  refine foldlM_invariant (fun next : BlockInterpretation =>
    found.relevantTransactions.length ≤ next.relevantTransactions.length)
    (fun _ _ _ hle hstep => hle.trans (relevant_le hstep)) entries le_rfl hrun

theorem run (hslots : crypto.SlotsDistinct) {entries : List (Transaction × ℕ)}
    (hindexing : Indexing crypto store fetched entries found write)
    (hlisted : ∀ entry ∈ entries, fetched.block.txdata[entry.2]? = some entry.1)
    (hcount : ∀ entry ∈ entries, entry.1.output.length < 2 ^ 32)
    (hlater : entries.Pairwise fun entry other => entry.2 < other.2 ∧
      crypto.txid entry.1 ≠ crypto.txid other.1)
    (hroom : store.journal.sequence + found'.relevantTransactions.length < 2 ^ 64)
    (hrun : entries.foldlM (readStep crypto codec interpreter store fetched) found = .ok found') :
    ∃ write', entries.foldlM (indexStep crypto codec interpreter store fetched) (write, found) =
        .ok (write', found') ∧
      Indexing crypto store fetched [] found' write' := by
  induction entries generalizing found write with
  | nil =>
    simp only [List.foldlM_nil, pure_eq_ok] at hrun
    subst hrun
    exact ⟨write, rfl, hindexing⟩
  | cons entry rest ih =>
    simp only [List.foldlM_cons, bind_eq_ok] at hrun
    obtain ⟨mid, hfirst, hrest⟩ := hrun
    rw [List.pairwise_cons] at hlater
    have hmid := relevant_le_run hrest
    obtain ⟨write', hstep, hindexing'⟩ := hindexing.step hslots
      (hlisted entry List.mem_cons_self) (hcount entry List.mem_cons_self)
      hlater.1 (by omega) hfirst
    obtain ⟨write'', hrun', hdone⟩ := ih hindexing'
      (fun other hother => hlisted other (List.mem_cons_of_mem _ hother))
      (fun other hother => hcount other (List.mem_cons_of_mem _ hother)) hlater.2 hrest
    refine ⟨write'', ?_, hdone⟩
    rw [List.foldlM_cons, hstep, ok_bind, hrun']

end Indexing

end DeadcatNode
