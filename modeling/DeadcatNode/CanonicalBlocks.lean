import DeadcatNode.ContractCursors
import DeadcatNode.NodeStoreProvenance
import DeadcatNode.SequentialIndexing

/-!
# Canonical blocks

A block which the coordinator interprets is always applied.  The result is the
same as when its transactions are interpreted and written one after the other.
-/

namespace DeadcatNode

open Checked

variable {delta : BlockDelta}

/-! ## Blocks on top of the tip -/

/-- No stored output and no tracked outpoint refers to a transaction. -/
structure Store.Unstored (store : Store) (txid : Txid) : Prop where
  outputs : ∀ outpoint : OutPoint, outpoint.txid = txid → store.chain.outputs[outpoint]? = none
  owners : ∀ outpoint : OutPoint, outpoint.txid = txid → store.outpointOwner outpoint = none

/-- A complete block on top of the tip, with new transactions. -/
structure FetchedBlock.Extends (hashing : Hashing) (store : Store)
    (fetched : FetchedBlock) : Prop where
  height : fetched.anchor.height = store.chain.tip.height + 1
  previous : fetched.block.header.prevBlockhash = store.chain.tip.hash
  nonempty : fetched.block.txdata ≠ []
  txids : (fetched.block.txdata.map hashing.txid).Nodup
  unstored : ∀ transaction ∈ fetched.block.txdata, store.Unstored (hashing.txid transaction)

def ChainTables.cursorsAt (chain : ChainTables) (height : ℕ) : List BackfillProgress :=
  (chain.backfillProgress.toList.map Prod.snd).filter fun progress =>
    progress.nextPosition.blockHeight = height

/-- Counters of the store have room for a block, and the store may be written
to. -/
structure Store.Accepts (store : Store) (fetched : FetchedBlock) (delta : BlockDelta) : Prop where
  status : store.syncStatus ≠ .rescanRequired
  height : fetched.anchor.height + 1 < 2 ^ 32
  transactions : fetched.block.txdata.length < 2 ^ 32
  outputs : ∀ transaction ∈ fetched.block.txdata, transaction.output.length < 2 ^ 32
  events : store.journal.sequence + delta.relevantTransactions.length +
    2 * (store.chain.cursorsAt fetched.anchor.height).length < 2 ^ 64

section Start

variable {crypto : MarketCrypto} {store : Store} {fetched : FetchedBlock}
  {allowed : Store → StoreOperation → Prop}

theorem Store.ReachableBy.overlay (hstore : store.ReachableBy crypto.toHashing allowed) :
    Overlay crypto.toHashing (fetched.context store {}) store.chain := by
  have hplaced := hstore.wellFormed.placed
  refine ⟨hplaced.exact, ?_, rfl, ?_, fun c => ⟨_, rfl, rfl⟩, fun tracked => rfl⟩
  · intro outpoint ref href
    obtain ⟨⟨row, hrow, -⟩, -⟩ := hplaced.outputs outpoint ref href
    exact ⟨row, hrow⟩
  · intro outpoint owner
    show ownerInContext ((fetched.context store {}).against store) outpoint = .live owner ↔
      store.outpointOwner outpoint = some owner
    rw [ownerInContext_against]
    cases store.outpointOwner outpoint <;> simp

theorem FetchedBlock.Extends.fresh (hextends : fetched.Extends crypto.toHashing store)
    (hstore : store.ReachableBy crypto.toHashing allowed)
    {entry : Transaction × ℕ} (hentry : entry ∈ fetched.block.txdata.zipIdx) :
    store.chain.Fresh ⟨fetched.anchor.height, entry.2⟩ (crypto.txid entry.1) := by
  obtain ⟨hlinked, hplaced⟩ := hstore.wellFormed
  have hheight := hextends.height
  have hmem : entry.1 ∈ fetched.block.txdata := by
    obtain ⟨transaction, i⟩ := entry
    exact List.mem_of_getElem? (List.mem_zipIdx_iff_getElem?.mp hentry)
  have hunstored := hextends.unstored entry.1 hmem
  refine ⟨?_, ?_, hunstored.outputs, hunstored.owners⟩
  · by_contra hsome
    obtain ⟨row, hrow⟩ := Option.ne_none_iff_exists'.mp hsome
    have hle : fetched.anchor.height ≤ store.chain.tip.height := hplaced.height_le_tip hlinked hrow
    omega
  · intro c
    by_contra hsome
    obtain ⟨row, hrow⟩ := Option.ne_none_iff_exists'.mp hsome
    have hle : fetched.anchor.height ≤ store.chain.tip.height :=
      hplaced.history.height_le_tip hlinked hrow
    omega

theorem Indexing.start (hextends : fetched.Extends crypto.toHashing store)
    (hstore : store.ReachableBy crypto.toHashing allowed) {entries : List (Transaction × ℕ)}
    (hentries : ∀ entry ∈ entries, entry ∈ fetched.block.txdata.zipIdx) :
    Indexing crypto store fetched entries {} store.startBlock := by
  refine ⟨rfl, hstore.overlay, rfl, rfl, rfl, fun _ hc => hc, ?_, by simp,
    List.Pairwise.nil, by simp, by simp, List.nodup_nil, by simp⟩
  intro entry hentry
  exact hextends.fresh hstore (hentries entry hentry)

theorem FetchedBlock.Extends.pairwise (hextends : fetched.Extends crypto.toHashing store) :
    fetched.block.txdata.zipIdx.Pairwise fun entry other =>
      entry.2 < other.2 ∧ crypto.txid entry.1 ≠ crypto.txid other.1 := by
  have htxids := hextends.txids
  rw [List.pairwise_iff_getElem]
  intro i j hi hj hlt
  simp only [List.getElem_zipIdx, Nat.zero_add]
  refine ⟨hlt, ?_⟩
  rw [List.length_zipIdx] at hi hj
  rw [List.nodup_iff_injective_getElem] at htxids
  intro hsame
  have hindex := @htxids ⟨i, by simpa using hi⟩ ⟨j, by simpa using hj⟩ (by simpa using hsame)
  simp only [Fin.mk.injEq] at hindex
  omega

end Start

/-! ## The end of a block -/

section Finish

variable {hashing : Hashing}

theorem insertRecoveryHints_ok {hints : List RecoveryHintDelta} {write : BlockWrite}
    (habsent : ∀ hint ∈ hints, write.chain.recoveryHints[hint.location]? = none)
    (hnodup : (hints.map RecoveryHintDelta.location).Nodup) :
    ∃ next, hints.foldlM BlockWrite.insertRecoveryHint write = .ok next ∧
      next.journal = write.journal ∧
      next.chain = { write.chain with
        recoveryHints := next.chain.recoveryHints } := by
  induction hints generalizing write with
  | nil => exact ⟨write, rfl, rfl, rfl⟩
  | cons hint rest ih =>
    simp only [List.map_cons, List.nodup_cons] at hnodup
    have hstep := BlockWrite.insertRecoveryHint_eq_ok.mpr ⟨habsent hint List.mem_cons_self, rfl⟩
    obtain ⟨next, hrest, hjournal, hchain⟩ := @ih { write with
        chain := { write.chain with
          recoveryHints := write.chain.recoveryHints.insert hint.location hint }
        undo := { write.undo with
          recoveryLocations := write.undo.recoveryLocations ++ [hint.location] } }
      (by
        intro other hother
        rw [Table.row_insert, if_neg]
        · exact habsent other (List.mem_cons_of_mem _ hother)
        · intro hsame
          exact hnodup.1 (hsame ▸ List.mem_map_of_mem hother)) hnodup.2
    refine ⟨next, ?_, hjournal, hchain⟩
    rw [List.foldlM_cons, hstep, ok_bind, hrest]

theorem BlockWrite.advanceCatching_of_contract
    {blockDigest nextHeight : ℕ} {write : BlockWrite} {progress : BackfillProgress}
    (hexact : write.chain.contractTables.Exact hashing)
    (hcontract : (write.chain.contractTables.contracts[ progress.contractId]?).isSome)
    (hcount : delta.transitionCount progress.contractId < 2 ^ 32)
    (hroom : write.journal.sequence + 2 < 2 ^ 64) :
    ∃ next, write.advanceCatching hashing delta blockDigest nextHeight progress = .ok next ∧
      next.journal.sequence ≤ write.journal.sequence + 2 ∧
      next.chain.contractTables.Exact hashing ∧
      ∀ c : ContractId, (write.chain.contractTables.contracts[c]?).isSome →
        (next.chain.contractTables.contracts[c]?).isSome := by
  obtain ⟨before, hbefore⟩ := Option.isSome_iff_exists.mp hcontract
  have hid : before.contractId = progress.contractId := hexact.keyed _ _ hbefore
  by_cases hcatching : before.syncState.isCatchingUp = true
  · have hsame := hexact.insertable_removeContract (hid ▸ hbefore)
    have hinsertable : (write.chain.contractTables.removeContract hashing before).Insertable hashing
          { before with syncState := .ready delta.anchor } :=
      ⟨⟨hsame.valid.roles, hsame.valid.outpoints, hsame.valid.scriptRoles,
        hsame.valid.scriptHashes⟩, hsame.absent, hsame.unowned⟩
    obtain ⟨first, hfirst, -, hfirstSequence⟩ :=
      EventJournal.appendEvent_of_room (.backfillApplied progress.contractId
        delta.anchor (delta.transitionCount progress.contractId))
        (show write.journal.sequence + 1 < 2 ^ 64 by omega)
    obtain ⟨second, hsecond, -, hsecondSequence⟩ :=
      EventJournal.appendEvent_of_room (.contractReady progress.contractId delta.anchor)
        (show first.sequence + 1 < 2 ^ 64 by omega)
    refine ⟨write.promoted hashing delta blockDigest nextHeight progress before
      second, ?_, ?_, ?_, ?_⟩
    · simp only [advanceCatching, hbefore, okOr, ok_bind, hcatching, if_true,
        bind_eq_ok, ContractTables.insertContract_eq_ok, require_eq_ok, pure_eq_ok]
      exact ⟨_, ⟨hinsertable, rfl⟩, (), hcount, first, hfirst, second, hsecond, rfl⟩
    · show second.sequence ≤ _
      omega
    · exact (hexact.removeContract (hid ▸ hbefore)).putContract hinsertable
    · intro c hc
      simp only [promoted, ContractTables.putContract_contracts,
        ContractTables.removeContract_contracts, Table.row_insert, Table.row_erase]
      by_cases hsameId : before.contractId = c
      · simp [hsameId]
      · simpa [hsameId] using hc
  · refine ⟨write, ?_, by omega, hexact, fun c hc => hc⟩
    simp only [advanceCatching, hbefore, okOr, ok_bind]
    rw [if_neg hcatching]
    rfl

theorem BlockWrite.advanceCursors_ok
    {blockDigest nextHeight : ℕ} {rows : List BackfillProgress} {write : BlockWrite}
    (hexact : write.chain.contractTables.Exact hashing)
    (hcontracts : ∀ progress ∈ rows,
      (write.chain.contractTables.contracts[progress.contractId]?).isSome)
    (hcount : ∀ c, delta.transitionCount c < 2 ^ 32)
    (hroom : write.journal.sequence + 2 * rows.length < 2 ^ 64) :
    ∃ next, rows.foldlM (advanceCatching hashing delta blockDigest nextHeight)
      write = .ok next := by
  induction rows generalizing write with
  | nil => exact ⟨write, rfl⟩
  | cons progress rest ih =>
    rw [List.length_cons] at hroom
    obtain ⟨mid, hmid, hsequence, hexactMid, hkept⟩ :=
      @advanceCatching_of_contract _ _ blockDigest nextHeight _ _ hexact
        (hcontracts progress List.mem_cons_self) (hcount progress.contractId) (by omega)
    obtain ⟨next, hnext⟩ := ih hexactMid
      (fun other hother => hkept _ (hcontracts other (List.mem_cons_of_mem _ hother))) (by omega)
    refine ⟨next, ?_⟩
    rw [List.foldlM_cons, hmid, ok_bind, hnext]

theorem transitionCount_le
    (hids : ∀ transaction ∈ delta.relevantTransactions,
      (transaction.stateUpdates.map StateUpdate.contractId).Nodup)
    (c : ContractId) : delta.transitionCount c ≤ delta.relevantTransactions.length := by
  unfold BlockDelta.transitionCount
  generalize delta.relevantTransactions = transactions at hids ⊢
  induction transactions with
  | nil => simp
  | cons transaction rest ih =>
    have hone : (transaction.stateUpdates.filter fun update =>
        update.contractId = c).length ≤ 1 := by
      rw [filter_update_eq (hids transaction List.mem_cons_self)]
      cases transaction.stateUpdates.find? (fun update => update.contractId = c) <;> simp
    have hrest := ih fun other hother => hids other (List.mem_cons_of_mem _ hother)
    simp only [List.flatMap_cons, List.filter_append, List.length_append, List.length_cons]
    omega

end Finish

/-! ## The block -/

section Block

variable {crypto : MarketCrypto} {codec : SimplicityCodec}
  {interpreter : DeadcatInterpreter} {store : Store} {fetched : FetchedBlock}
  {allowed : Store → StoreOperation → Prop} {found : BlockInterpretation} {write : BlockWrite}

theorem interpretCanonicalBlock_ok
    (hdelta : interpretCanonicalBlock crypto.toHashing
      (DeadcatInterpreter.interpretTransaction crypto codec interpreter) store
      fetched = .ok delta) :
    ∃ found, fetched.block.txdata.zipIdx.foldlM
        (readStep crypto codec interpreter store fetched) {} = .ok found ∧
      delta = found.toDelta crypto.toHashing fetched := by
  simp only [interpretCanonicalBlock, bind_eq_ok, pure_eq_ok] at hdelta
  obtain ⟨found, hfound, rfl⟩ := hdelta
  exact ⟨found, hfound, rfl⟩

theorem hints_strictly_sorted (hnodup : (found.recoveryHints.map
      RecoveryHintDelta.location).Nodup) :
    ((found.toDelta crypto.toHashing fetched).recoveryHints.map
      RecoveryHintDelta.location).IsChain (· < ·) := by
  rw [List.isChain_iff_pairwise, List.pairwise_map]
  have hsorted := List.pairwise_insertionSort
    (fun hint hint' : RecoveryHintDelta => hint.location ≤ hint'.location) found.recoveryHints
  have hdistinct : ((found.toDelta crypto.toHashing fetched).recoveryHints.map
      RecoveryHintDelta.location).Nodup :=
    ((List.perm_insertionSort _ _).map _).nodup_iff.mpr hnodup
  rw [List.nodup_iff_pairwise_ne, List.pairwise_map] at hdistinct
  exact (hsorted.and hdistinct).imp fun hboth => lt_of_le_of_ne hboth.1 hboth.2

theorem Indexing.validateBlockShape (hindexing : Indexing crypto store fetched [] found write)
    (hextends : fetched.Extends crypto.toHashing store) :
    DeadcatNode.validateBlockShape crypto.toHashing
      (found.toDelta crypto.toHashing fetched) = .ok () := by
  simp only [DeadcatNode.validateBlockShape, bind_eq_ok, require_eq_ok, forM_eq_ok]
  refine ⟨(), ?_, (), hextends.txids, (),
    List.isChain_iff_pairwise.mpr hindexing.ordered, (), ?_, (),
    hints_strictly_sorted hindexing.hintsNodup, ?_⟩
  · simpa [BlockInterpretation.toDelta] using hextends.nonempty
  · intro transaction htransaction
    exact (hindexing.stands transaction htransaction).validateTransactionShape rfl rfl
  · intro hint hhint
    exact hindexing.hints hint ((List.mem_insertionSort _).mp hhint)

theorem Indexing.sorted (hindexing : Indexing crypto store fetched [] found write) :
    (found.relevantTransactions.insertionSort fun a b =>
      a.position.txIndex ≤ b.position.txIndex) = found.relevantTransactions := by
  apply List.Pairwise.insertionSort_eq
  have hordered := hindexing.ordered
  rw [List.pairwise_map] at hordered
  refine hordered.imp_of_mem ?_
  intro transaction other hmem hmem' hlt
  rcases (ChainPosition.lt_iff _ _).mp hlt with hheight | ⟨-, hindex⟩
  · rw [(hindexing.stands transaction hmem).height,
      (hindexing.stands other hmem').height] at hheight
    exact absurd hheight (lt_irrefl _)
  · exact hindex.le

theorem Indexing.relevant_le_txdata (hindexing : Indexing crypto store fetched [] found write) :
    found.relevantTransactions.length ≤ fetched.block.txdata.length := by
  have hordered := hindexing.ordered
  rw [List.pairwise_map] at hordered
  have hnodup : (found.relevantTransactions.map
      fun transaction => transaction.position.txIndex).Nodup := by
    rw [List.nodup_iff_pairwise_ne, List.pairwise_map]
    refine hordered.imp_of_mem ?_
    intro transaction other hmem hmem' hlt hsame
    have hheight := (hindexing.stands transaction hmem).height.trans
      (hindexing.stands other hmem').height.symm
    rcases (ChainPosition.lt_iff _ _).mp hlt with hlower | ⟨-, hbefore⟩
    · exact absurd hheight hlower.ne
    · exact hbefore.ne hsame
  have hsubset : (found.relevantTransactions.map fun transaction => transaction.position.txIndex) ⊆
        List.range fetched.block.txdata.length := by
    intro i hi
    obtain ⟨transaction, hmem, rfl⟩ := List.mem_map.mp hi
    rw [List.mem_range]
    exact (List.getElem?_eq_some_iff.mp (hindexing.stands transaction hmem).listed).1
  simpa using (hnodup.subperm hsubset).length_le

theorem Store.ReachableBy.contract_of_cursorsAt
    (hstore : store.ReachableBy crypto.toHashing allowed) {height : ℕ} {progress : BackfillProgress}
    (hmem : progress ∈ store.chain.cursorsAt height) :
    (store.chain.contractTables.contracts[progress.contractId]?).isSome := by
  obtain ⟨hrow, -⟩ := List.mem_filter.mp hmem
  obtain ⟨⟨c, progress'⟩, hentry, rfl⟩ := List.mem_map.mp hrow
  have hcursor : store.chain.backfillProgress[c]? = some progress' :=
    Std.ExtTreeMap.mem_toList_iff_getElem?_eq_some.mp hentry
  have hid : progress'.contractId = c := (hstore.wellFormed.placed.progress c progress' hcursor).1
  obtain ⟨record, hrecord⟩ := hstore.contract_of_cursor hcursor
  exact Option.isSome_iff_exists.mpr ⟨record, hid ▸ hrecord⟩

section

variable (hindexing : Indexing crypto store fetched [] found write)
  (hstore : store.ReachableBy crypto.toHashing allowed)
  (hextends : fetched.Extends crypto.toHashing store)
  (haccepts : store.Accepts fetched (found.toDelta crypto.toHashing fetched))

include hindexing hstore hextends haccepts

theorem Indexing.finish :
    ∃ hinted final, (found.toDelta crypto.toHashing fetched).recoveryHints.foldlM
        BlockWrite.insertRecoveryHint write = .ok hinted ∧
      hinted.advanceCatchingThroughCanonicalBlock crypto.toHashing
        (found.toDelta crypto.toHashing fetched)
        (crypto.digest (found.toDelta crypto.toHashing fetched)) = .ok final := by
  have hheight := hextends.height
  have hplaced := hstore.wellFormed.placed
  have hlinked := hstore.wellFormed.linked
  obtain ⟨hinted, hhinted, hjournal, hchain⟩ := @insertRecoveryHints_ok
    (found.toDelta crypto.toHashing fetched).recoveryHints write
    (by
      intro hint hhint
      have hplace := hindexing.hints hint ((List.mem_insertionSort _).mp hhint)
      rw [hindexing.recoveryHints]
      by_contra hsome
      obtain ⟨row, hrow⟩ := Option.ne_none_iff_exists'.mp hsome
      have hle : hint.location.position.blockHeight ≤ store.chain.tip.height :=
        hplaced.hints.height_le_tip hlinked hrow
      omega)
    (((List.perm_insertionSort _ _).map _).nodup_iff.mpr hindexing.hintsNodup)
  have hprogress : hinted.chain.backfillProgress = store.chain.backfillProgress := by
    rw [hchain]
    exact hindexing.backfillProgress
  have htables : hinted.chain.contractTables = write.chain.contractTables := by rw [hchain]
  have hcursors : (hinted.chain.backfillProgress.toList.map Prod.snd).filter
      (fun progress => progress.nextPosition.blockHeight =
        (found.toDelta crypto.toHashing fetched).anchor.height) =
      store.chain.cursorsAt fetched.anchor.height := by
    rw [hprogress]
    rfl
  refine ⟨hinted, ?_⟩
  unfold BlockWrite.advanceCatchingThroughCanonicalBlock
  rw [hcursors]
  by_cases hnone : store.chain.cursorsAt fetched.anchor.height = []
  · exact ⟨hinted, hhinted, by rw [if_pos hnone]⟩
  · rw [if_neg hnone]
    have hnext : checkedAdd 32 (found.toDelta crypto.toHashing fetched).anchor.height 1 =
          some (fetched.anchor.height + 1) :=
      checkedAdd_eq_some.mpr ⟨rfl, haccepts.height⟩
    rw [hnext, okOr, ok_bind]
    have hevents := haccepts.events
    have hsequence := hindexing.sequence
    have hrelevant := hindexing.relevant_le_txdata
    have htransactions := haccepts.transactions
    obtain ⟨final, hfinal⟩ := @BlockWrite.advanceCursors_ok
      (found.toDelta crypto.toHashing fetched) crypto.toHashing
      (crypto.digest (found.toDelta crypto.toHashing fetched)) (fetched.anchor.height + 1)
      (store.chain.cursorsAt fetched.anchor.height) hinted
      (htables ▸ hindexing.overlay.exact)
      (by
        intro progress hmem
        rw [htables]
        exact hindexing.contracts _ (hstore.contract_of_cursorsAt hmem))
      (by
        intro c
        refine lt_of_le_of_lt (transitionCount_le ?_ c) (lt_of_le_of_lt hrelevant htransactions)
        intro transaction htransaction
        exact (List.nodup_append.mp (hindexing.stands transaction htransaction).ids).2.1)
      (by
        rw [hjournal, hsequence]
        exact hevents)
    exact ⟨final, hhinted, hfinal⟩

theorem Indexing.applyBlock :
    ∃ hinted final, (found.toDelta crypto.toHashing fetched).recoveryHints.foldlM
        BlockWrite.insertRecoveryHint write = .ok hinted ∧
      hinted.advanceCatchingThroughCanonicalBlock crypto.toHashing
        (found.toDelta crypto.toHashing fetched)
        (crypto.digest (found.toDelta crypto.toHashing fetched)) = .ok final ∧
      store.applyBlock crypto.toHashing (found.toDelta crypto.toHashing fetched) =
        .ok (⟨true, fetched.anchor, final.journal.highWatermark⟩,
          store.commitBlock crypto.toHashing (found.toDelta crypto.toHashing fetched) final) := by
  obtain ⟨hinted, final, hhinted, hfinal⟩ := hindexing.finish hstore hextends haccepts
  have hwritten : store.startBlock.applyDelta crypto.toHashing
      (found.toDelta crypto.toHashing fetched) = .ok final := by
    unfold BlockWrite.applyDelta
    rw [show (found.toDelta crypto.toHashing fetched).relevantTransactions =
      found.relevantTransactions from rfl, hindexing.sorted,
      show (found.toDelta crypto.toHashing fetched).anchor =
        fetched.anchor from rfl, hindexing.written, ok_bind, hhinted, ok_bind]
    exact hfinal
  have hheight := hextends.height
  have hroom := haccepts.height
  have habsent : store.chain.blocks[fetched.anchor.height]? = none := by
    by_contra hsome
    obtain ⟨block, hblock⟩ := Option.ne_none_iff_exists'.mp hsome
    have hle : fetched.anchor.height ≤ store.chain.tip.height :=
      (hstore.wellFormed.linked.block _ block hblock).2.1
    omega
  have hnext : checkedAdd 32 store.chain.tip.height 1 = some fetched.anchor.height :=
    checkedAdd_eq_some.mpr ⟨hheight.symm, by omega⟩
  exact ⟨hinted, final, hhinted, hfinal, Store.applyBlock_of_written
    (hindexing.validateBlockShape hextends) haccepts.status habsent hnext
    hextends.previous hwritten⟩

theorem Indexing.indexSequentially
    (hrun : fetched.block.txdata.zipIdx.foldlM (indexStep crypto codec interpreter store fetched)
      (store.startBlock, {}) = .ok (write, found)) :
    ∃ result next, store.applyBlock crypto.toHashing (found.toDelta crypto.toHashing fetched) =
        .ok (result, next) ∧ result.applied = true ∧
      store.indexSequentially crypto.toHashing
        (DeadcatInterpreter.interpretTransaction crypto codec interpreter) fetched = .ok next := by
  obtain ⟨hinted, final, hhinted, hfinal, happly⟩ := hindexing.applyBlock hstore hextends haccepts
  refine ⟨_, _, happly, rfl, ?_⟩
  unfold Store.indexSequentially
  rw [hrun, ok_bind]
  dsimp only
  rw [hhinted]
  simp only [Except.mapError, ok_bind, hfinal]
  rfl

end

theorem Indexing.exists_take (hslots : crypto.SlotsDistinct)
    (hstore : store.ReachableBy crypto.toHashing allowed)
    (hextends : fetched.Extends crypto.toHashing store)
    (hfound : fetched.block.txdata.zipIdx.foldlM
      (readStep crypto codec interpreter store fetched) {} = .ok found)
    (haccepts : store.Accepts fetched (found.toDelta crypto.toHashing fetched)) (n : ℕ) :
    ∃ found' write, (fetched.block.txdata.zipIdx.take n).foldlM
        (readStep crypto codec interpreter store fetched) {} = .ok found' ∧
      (fetched.block.txdata.zipIdx.take n).foldlM (indexStep crypto codec interpreter store fetched)
        (store.startBlock, {}) = .ok (write, found') ∧
      Indexing crypto store fetched [] found' write := by
  have hevents : store.journal.sequence + found.relevantTransactions.length +
      2 * (store.chain.cursorsAt fetched.anchor.height).length < 2 ^ 64 :=
    haccepts.events
  rw [← List.take_append_drop n fetched.block.txdata.zipIdx, List.foldlM_append] at hfound
  obtain ⟨found', hfound', hrest⟩ := bind_eq_ok.mp hfound
  have hle := Indexing.relevant_le_run hrest
  have hmem : ∀ entry ∈ fetched.block.txdata.zipIdx.take n, entry ∈ fetched.block.txdata.zipIdx :=
    fun entry hentry => List.mem_of_mem_take hentry
  have hlisted : ∀ entry ∈ fetched.block.txdata.zipIdx.take n,
      fetched.block.txdata[entry.2]? = some entry.1 := by
    rintro ⟨transaction, i⟩ hentry
    exact List.mem_zipIdx_iff_getElem?.mp (hmem _ hentry)
  have hcount : ∀ entry ∈ fetched.block.txdata.zipIdx.take n,
      entry.1.output.length < 2 ^ 32 := fun entry hentry =>
    haccepts.outputs entry.1 (List.mem_of_getElem? (hlisted entry hentry))
  obtain ⟨write, hrun, hindexing⟩ :=
    (Indexing.start hextends hstore hmem).run hslots hlisted hcount
      (hextends.pairwise.sublist (List.take_sublist _ _)) (by omega) hfound'
  exact ⟨found', write, hfound', hrun, hindexing⟩

/-- A block on top of the tip which is interpreted is applied, and the result
is that of its transactions interpreted and written one after the other.  The
lookups of the interpreter agree with the tables after every transaction. -/
theorem interpreted_block_applies (hslots : crypto.SlotsDistinct)
    (hstore : store.ReachableBy crypto.toHashing allowed)
    (hextends : fetched.Extends crypto.toHashing store) {delta : BlockDelta}
    (hdelta : interpretCanonicalBlock crypto.toHashing
      (DeadcatInterpreter.interpretTransaction crypto codec interpreter) store
      fetched = .ok delta)
    (haccepts : store.Accepts fetched delta) :
    ∃ result next, store.applyBlock crypto.toHashing delta = .ok (result, next) ∧
      result.applied = true ∧
      store.indexSequentially crypto.toHashing
        (DeadcatInterpreter.interpretTransaction crypto codec interpreter)
        fetched = .ok next ∧
      ∀ n, ∃ found write, (fetched.block.txdata.zipIdx.take n).foldlM
          (interpretCanonicalTransaction crypto.toHashing
            (DeadcatInterpreter.interpretTransaction crypto codec interpreter)
            store fetched.anchor) {} = .ok found ∧
        (fetched.block.txdata.zipIdx.take n).foldlM (store.indexTransaction crypto.toHashing
            (DeadcatInterpreter.interpretTransaction crypto codec interpreter)
            fetched.anchor) (store.startBlock, {}) = .ok (write, found) ∧
        (fetched.context store found).Agrees { store with chain := write.chain } := by
  obtain ⟨found, hfound, rfl⟩ := interpretCanonicalBlock_ok hdelta
  have hread := Indexing.exists_take hslots hstore hextends hfound haccepts
  obtain ⟨found', write, hfound', hrun, hindexing⟩ := hread fetched.block.txdata.zipIdx.length
  rw [List.take_length] at hfound' hrun
  cases hfound.symm.trans hfound'
  obtain ⟨result, next, happly, happlied, hsequential⟩ :=
    hindexing.indexSequentially hstore hextends haccepts hrun
  refine ⟨result, next, happly, happlied, hsequential, ?_⟩
  intro n
  obtain ⟨first, write', hfirst, hrun', hindexing'⟩ := hread n
  exact ⟨first, write', hfirst, hrun', hindexing'.overlay.agrees⟩

end Block

/-! ## A market created and spent in one block -/

theorem sampleCrypto_scriptHash_append (script : Script) (byte : UInt8) :
    sampleCrypto.scriptHash (script ++ [byte]) =
      257 * sampleCrypto.scriptHash script + byte.toNat + 1 := by
  simp [sampleCrypto]

theorem sampleCrypto_scriptHash_injective : Function.Injective sampleCrypto.scriptHash := by
  intro script
  induction script using List.reverseRecOn with
  | nil =>
    intro other hsame
    rcases List.eq_nil_or_concat other with rfl | ⟨rest, byte, rfl⟩
    · rfl
    · rw [List.concat_eq_append, sampleCrypto_scriptHash_append] at hsame
      exact absurd hsame (by simp [sampleCrypto])
  | append_singleton script byte ih =>
    intro other hsame
    rcases List.eq_nil_or_concat other with rfl | ⟨rest, byte', rfl⟩
    · rw [sampleCrypto_scriptHash_append] at hsame
      exact absurd hsame (by simp [sampleCrypto])
    · rw [List.concat_eq_append] at hsame ⊢
      simp only [sampleCrypto_scriptHash_append] at hsame
      have hbyte := byte.toNat_lt
      have hbyte' := byte'.toNat_lt
      have hlast : byte.toNat = byte'.toNat := by omega
      rw [ih (show _ = sampleCrypto.scriptHash rest by omega), UInt8.toNat_inj.mp hlast]

theorem sampleCrypto_slotsDistinct : sampleCrypto.SlotsDistinct := by
  intro params
  refine List.Nodup.map ?_ (by decide)
  intro slot slot' hsame
  have htag : UInt8.ofNat (slot.tag + 1) = UInt8.ofNat (slot'.tag + 1) :=
    (List.cons.inj (sampleCrypto_scriptHash_injective hsame)).1
  cases slot <;> cases slot' <;> first | rfl | exact absurd htag (by decide)

def announcedCreation : Transaction :=
  { creationTransaction with
    output := creationTransaction.output ++ [{
      asset := .explicit 1
      value := .explicit 0
      scriptPubkey := [0x6a, 38, marketV1Tag] ++ List.replicate 31 0 ++ [2, 0, 0, 0, 0, 10] }] }

def busyBlock : FetchedBlock :=
  sampleBlock 1 [announcedCreation, issueTransaction]

theorem busyBlock_extends {store : Store} (hchain : store.chain = .atAnchor sampleAnchor) :
    busyBlock.Extends sampleCrypto.toHashing store := by
  refine ⟨by rw [hchain]; rfl, by rw [hchain]; rfl, by decide, by decide, ?_⟩
  intro transaction _
  refine ⟨fun outpoint _ => ?_, fun outpoint _ => ?_⟩
  · rw [hchain]
    exact Table.row_empty _
  · show store.chain.contractTables.outpointOwners[outpoint]? = none
    rw [hchain]
    exact Table.row_empty _

theorem interpreted_block_applies_busyBlock : ∃ delta result next,
      interpretCanonicalBlock sampleCrypto.toHashing sampleInterpreter
        (.initial sampleAnchor 0) busyBlock = .ok delta ∧
      delta.relevantTransactions.length = 2 ∧
      (Store.initial sampleAnchor 0).applyBlock sampleCrypto.toHashing delta =
        .ok (result, next) ∧ result.applied = true := by
  have hrun : isOkAnd (interpretCanonicalBlock sampleCrypto.toHashing
      sampleInterpreter (.initial sampleAnchor 0) busyBlock) (fun delta =>
        decide (delta.relevantTransactions.length = 2)) = true := by
    decide +kernel
  obtain ⟨delta, hdelta, htest⟩ := isOkAnd_iff.mp hrun
  have hcount := of_decide_eq_true htest
  have haccepts : (Store.initial sampleAnchor 0).Accepts busyBlock delta := by
    refine ⟨by decide, by decide, by decide, by decide, ?_⟩
    rw [hcount]
    decide +kernel
  have hreachable : (Store.initial sampleAnchor 0).Reachable sampleCrypto.toHashing := .initial _ _
  obtain ⟨result, next, happly, happlied, -⟩ := interpreted_block_applies
    sampleCrypto_slotsDistinct hreachable (busyBlock_extends rfl) hdelta haccepts
  exact ⟨delta, result, next, hdelta, hcount, happly, happlied⟩

/-- A creation, its hint and the first issuance are taken back. -/
theorem rollback_restores_busyBlock : ∃ delta accepted positions cursor restored,
    interpretCanonicalBlock sampleCrypto.toHashing sampleInterpreter (.initial sampleAnchor 0)
        busyBlock = .ok delta ∧
      (Store.initial sampleAnchor 0).AcceptsBlocks sampleCrypto.toHashing [delta] accepted ∧
      (accepted.chain.contractTables.contracts[sampleContract]?).map ContractRecord.state =
        some (.trading 5) ∧
      accepted.rollbackTo sampleCrypto.toHashing sampleAnchor 0 =
        .ok (.rolledBack ⟨1, 101⟩ sampleAnchor positions cursor, restored) ∧
      (Store.initial sampleAnchor 0).Restores 0 restored := by
  have hrun : isOkAnd (interpretCanonicalBlock sampleCrypto.toHashing sampleInterpreter
      (.initial sampleAnchor 0) busyBlock) (fun delta =>
        isOkAnd ((Store.initial sampleAnchor 0).applyBlock sampleCrypto.toHashing delta)
          fun applied => decide ((applied.2.chain.contractTables.contracts[sampleContract]?).map
              ContractRecord.state = some (.trading 5) ∧
            applied.2.chain.tip = ⟨1, 101⟩ ∧ applied.2.journal.sequence + 1 < 2 ^ 64 ∧
            applied.2.chain.blocks.toList.map Prod.fst = [1])) = true := by
    decide +kernel
  obtain ⟨delta, hdelta, htest⟩ := isOkAnd_iff.mp hrun
  obtain ⟨⟨result, accepted⟩, happly, hfound⟩ := isOkAnd_iff.mp htest
  obtain ⟨hstate, htip, hroom, hheights⟩ := of_decide_eq_true hfound
  have haccepts : (Store.initial sampleAnchor 0).AcceptsBlocks sampleCrypto.toHashing [delta]
      accepted := .cons happly (.nil _)
  have hone : ∀ (h : ℕ) (block : StoredBlock), accepted.chain.blocks[h]? = some block → h = 1 :=
    fun h block hblock => List.mem_singleton.mp
      (hheights ▸ List.mem_map_of_mem (Table.mem_toList_iff.mpr hblock))
  have hunique : NoRepeatedTxid accepted.chain.blocks :=
    fun h h' block block' _ hblock hblock' _ _ =>
    (hone h block hblock).trans (hone h' block' hblock').symm
  have hmoved : accepted.chain.tip ≠ (Store.initial sampleAnchor 0).chain.tip := by
    rw [htip]
    decide
  obtain ⟨positions, cursor, restored, hrollback, hrestores⟩ :=
    Store.rollback_restores_accepted_blocks (.initial _ _) (.inl rfl) haccepts hmoved hunique
      hroom 0
  rw [htip] at hrollback hrestores
  exact ⟨delta, accepted, positions, cursor, restored, hdelta, haccepts, hstate, hrollback,
    hrestores⟩

/-- A store which waits for a rebuild refuses the block it could interpret. -/
theorem rebuilding_store_refuses_busyBlock : ∃ store delta, store.Reachable sampleCrypto.toHashing ∧
      busyBlock.Extends sampleCrypto.toHashing store ∧
      interpretCanonicalBlock sampleCrypto.toHashing sampleInterpreter store busyBlock = .ok delta ∧
      store.applyBlock sampleCrypto.toHashing delta = .error .rebuildRequired := by
  have hrun : isOkAnd ((Store.initial sampleAnchor 0).markRebuildRequired 1)
      (fun store => isOkAnd (interpretCanonicalBlock sampleCrypto.toHashing
        sampleInterpreter store busyBlock) fun delta =>
          decide ((store.applyBlock sampleCrypto.toHashing delta).map
            (fun _ => ()) = .error .rebuildRequired)) = true := by
    decide +kernel
  obtain ⟨store, hmarked, htest⟩ := isOkAnd_iff.mp hrun
  obtain ⟨delta, hdelta, hrefused⟩ := isOkAnd_iff.mp htest
  have hperform : (Store.initial sampleAnchor 0).perform sampleCrypto.toHashing
      (.invalidateForRebuild 1) = .ok store := by
    simp only [Store.perform, Store.invalidateForRebuild, hmarked]
    rfl
  have hchain : store.chain = .atAnchor sampleAnchor :=
    congrArg Index.chain (Store.markRebuildRequired_index hmarked).1
  refine ⟨store, delta, .step (.initial _ _) trivial hperform, busyBlock_extends hchain, hdelta, ?_⟩
  have herror := of_decide_eq_true hrefused
  cases happly : store.applyBlock sampleCrypto.toHashing delta with
  | ok applied =>
    rw [happly] at herror
    cases herror
  | error error =>
    rw [happly] at herror
    cases herror
    rfl

end DeadcatNode
