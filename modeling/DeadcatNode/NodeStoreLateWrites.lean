import DeadcatNode.NodeStoreWrites

/-!
# Late registration and backfill as primitive writes

A backfilled block and a registration write at the height of a block which is
already indexed.  As for a canonical block, the row of a transaction is moved
before the contract rows it justifies.
-/

namespace DeadcatNode

open Checked

variable {activation : ℕ} {delta : BlockDelta} {store : Store}
  {group : RegistrationTransactionGroup} {hashing : Hashing}

/-! ## Backfill -/

/-- The undo rows with the row of one height replaced, if it is retained. -/
def overlayUndo (undoBlocks : Table ℕ UndoBlock) (height : ℕ)
    (undo : Option UndoBlock) : Table ℕ UndoBlock :=
  match undo with
  | some undo => undoBlocks.insert height undo
  | none => undoBlocks

theorem modifyUndo_overlayUndo {undoBlocks : Table ℕ UndoBlock} {height : ℕ}
    {undo : Option UndoBlock} (hretained : undo = none → undoBlocks[height]? = none)
    (change : UndoBlock → UndoBlock) :
    modifyUndo (overlayUndo undoBlocks height undo) height change =
      overlayUndo undoBlocks height (undo.map change) := by
  cases undo with
  | none => simp [modifyUndo, overlayUndo, hretained rfl]
  | some undo => exact modifyUndo_insert_self undoBlocks height undo change

theorem modifyUndo_modifyUndo (undoBlocks : Table ℕ UndoBlock) (height : ℕ)
    (first second : UndoBlock → UndoBlock) :
    modifyUndo (modifyUndo undoBlocks height first) height second =
      modifyUndo undoBlocks height (second ∘ first) := by
  apply Table.ext_rows
  intro a
  simp only [row_modifyUndo]
  by_cases ha : height = a <;> simp [ha]

namespace BackfillWrite

variable {update : StateUpdate} {transaction : ChainTxDelta} {items : List BackfillProgress}

def index (undoBlocks : Table ℕ UndoBlock) (height : ℕ) (write : BackfillWrite) : Index where
  chain := write.chain
  undoBlocks := overlayUndo undoBlocks height write.undo

abbrev Writes (hashing : Hashing) (activation : ℕ) (delta : BlockDelta)
    (undoBlocks : Table ℕ UndoBlock) (targets : List ContractId) (write next : BackfillWrite) :
    Prop :=
  Index.Writes hashing activation delta.anchor.height ⟨{c | c ∈ targets}, ∅⟩
    (write.index undoBlocks delta.anchor.height) (next.index undoBlocks delta.anchor.height)

variable {hashing : Hashing} {targets : List ContractId}
  {undoBlocks : Table ℕ UndoBlock} {write next : BackfillWrite}

/-- What holds throughout the replay of a block: the tables are exact, the
block is indexed, the undo row is open exactly when it is retained, and every
changed contract has an entry in it. -/
structure Replaying (hashing : Hashing) (undoBlocks : Table ℕ UndoBlock)
    (delta : BlockDelta) (write : BackfillWrite) : Prop where
  exact : write.chain.contractTables.Exact hashing
  below : delta.anchor ≠ write.chain.tip → delta.anchor.height < write.chain.tip.height
  block : ∃ block, write.chain.blocks[delta.anchor.height]? = some block ∧
    block.anchor = delta.anchor ∧ block.orderedTxids = delta.orderedTxids
  retained : write.undo = none → undoBlocks[delta.anchor.height]? = none
  journalled : ∀ undo, write.undo = some undo → ∀ c ∈ write.changedContracts,
    c ∈ undo.contractChanges.map ContractUndo.contractId

/-- The cursors of contracts which are still to be moved past the block. -/
structure Awaiting (delta : BlockDelta) (items : List BackfillProgress)
    (write : BackfillWrite) : Prop where
  nodup : (items.map BackfillProgress.contractId).Nodup
  current : ∀ item ∈ items, write.chain.backfillProgress[item.contractId]? = some item
  at_height : ∀ item ∈ items, item.nextPosition.blockHeight = delta.anchor.height
  journalled : ∀ undo, write.undo = some undo → ∀ item ∈ items,
    ⟨item.contractId, some item⟩ ∈ undo.backfillProgressChanges

theorem applyUpdate_comm {delta : ChainTxDelta} (change : BackfillWrite → BackfillWrite)
    (hcontracts : ∀ w, (change w).chain.contractTables = w.chain.contractTables)
    (hhistory : ∀ w, (change w).chain.contractHistory = w.chain.contractHistory)
    (hchanged : ∀ w, (change w).changedContracts = w.changedContracts)
    (hafter : ∀ w before, (change w).afterUpdate hashing delta before update =
      change (w.afterUpdate hashing delta before update))
    (hupdate : write.applyUpdate hashing targets delta update = .ok next) :
    (change write).applyUpdate hashing targets delta update = .ok (change next) := by
  rw [applyUpdate_eq_ok] at hupdate ⊢
  obtain ⟨htarget, before, hbefore, hcatching, hallowed, hcount, rfl⟩ := hupdate
  refine ⟨htarget, before, ?_, hcatching, ?_, ?_, (hafter write before).symm⟩
  · rw [hcontracts]
    exact hbefore
  · exact ⟨hallowed.state, hallowed.spentNodup, hallowed.spentAll,
      hallowed.spentOnly, hallowed.created,
      by rw [hcontracts]; exact hallowed.insertable,
      by rw [hhistory]; exact hallowed.newEntry⟩
  · rw [hchanged]
    exact hcount

theorem applyUpdate_withAffected {delta : ChainTxDelta}
    (stored : StoredTransaction) (affected : List ContractId)
    (hupdate : write.applyUpdate hashing targets delta update = .ok next) :
    (write.withAffected stored affected).applyUpdate hashing targets delta
        update = .ok (next.withAffected stored affected) :=
  applyUpdate_comm (withAffected stored affected) (fun _ => rfl)
    (fun _ => rfl) (fun _ => rfl) (fun _ _ => rfl) hupdate

theorem applyUpdate_withTransaction {delta other : ChainTxDelta} (affected : List ContractId)
    (hupdate : write.applyUpdate hashing targets delta update = .ok next) :
    (write.withTransaction other affected).applyUpdate hashing targets delta
        update = .ok (next.withTransaction other affected) := by
  refine applyUpdate_comm (withTransaction other affected) (fun _ => rfl)
    (fun _ => rfl) (fun _ => rfl) (fun w before => ?_) hupdate
  cases w with
  | mk chain journal undo changed ready => cases undo <;> rfl

theorem transactions_applyUpdate {delta : ChainTxDelta}
    (hupdate : write.applyUpdate hashing targets delta update = .ok next) :
    next.chain.transactions = write.chain.transactions := by
  obtain ⟨-, before, -, -, -, -, rfl⟩ := applyUpdate_eq_ok.mp hupdate
  rfl

def RowStored (transaction : ChainTxDelta) (write : BackfillWrite) : Prop :=
  ∃ affected, write.chain.transactions[transaction.position]? = some (transaction.toRow affected)

theorem applyUpdate_writes (hheight : transaction.position.blockHeight = delta.anchor.height)
    (hreplaying : write.Replaying hashing undoBlocks delta)
    (hplaced : ∀ c ∈ targets, ∃ cursor, write.chain.backfillProgress[c]? = some cursor ∧
        cursor.nextPosition.blockHeight = delta.anchor.height)
    (hrow : write.RowStored transaction)
    (hupdate : write.applyUpdate hashing targets transaction update = .ok next) :
    (next.Replaying hashing undoBlocks delta ∧ next.RowStored transaction) ∧
      write.Writes hashing activation delta undoBlocks targets next := by
  obtain ⟨htarget, before, hbefore, hcatching, hallowed, -, rfl⟩ := applyUpdate_eq_ok.mp hupdate
  have hid : before.contractId = update.contractId := hreplaying.exact.keyed _ _ hbefore
  rw [← hid] at hbefore
  obtain ⟨block, hblock, hanchor, htxids⟩ := hreplaying.block
  obtain ⟨affected, hstored⟩ := hrow
  refine ⟨⟨⟨?_, hreplaying.below, ⟨block, hblock, hanchor, htxids⟩, ?_, ?_⟩,
    ⟨affected, hstored⟩⟩, ?_⟩
  · exact (hreplaying.exact.removeContract hbefore).putContract hallowed.insertable
  · intro hnone
    exact hreplaying.retained (by simpa [afterUpdate] using hnone)
  · intro undo hundo c hc
    simp only [afterUpdate, Option.map_eq_some_iff] at hundo
    obtain ⟨undo', hundo', rfl⟩ := hundo
    simp only [afterUpdate, List.mem_append, List.mem_singleton] at hc
    simp only [List.map_append, List.map_singleton, List.mem_append, List.mem_singleton]
    exact hc.imp_left (hreplaying.journalled undo' hundo' c)
  · have hentry : (update.historyEntry transaction).position = transaction.position := rfl
    have hindex : (write.afterUpdate hashing transaction before update).index
        undoBlocks delta.anchor.height =
        ((write.index undoBlocks delta.anchor.height).replaceContract hashing
          delta.anchor.height true before (before.updated update)).putHistory
            before.contractId (update.historyEntry transaction) := by
      simp only [index, Index.replaceContract, Index.putHistory, hentry,
        hheight, if_true, modifyUndo_modifyUndo]
      rw [modifyUndo_overlayUndo hreplaying.retained]
      simp only [afterUpdate, ChainTables.afterTransition, hid]
      rfl
    rw [Writes, hindex]
    apply Relation.ReflTransGen.single
    refine .applyTransition hheight (by rw [hid]; exact htarget) hbefore rfl
      hallowed.insertable (by rw [show (write.index undoBlocks
        delta.anchor.height).chain = write.chain from rfl, hblock]; rfl)
      hstored ?_ rfl (by rw [hid]; exact hallowed.newEntry) ⟨rfl, rfl⟩
      (.inr ⟨hcatching, hplaced _ (by rw [hid]; exact htarget)⟩)
    intro tracked htracked
    obtain ⟨htxid, hvout⟩ := hallowed.created tracked htracked
    exact BlockWrite.mem_allOutpoints htxid hvout affected

theorem Awaiting.applyUpdate (hawaiting : write.Awaiting delta items)
    (hupdate : write.applyUpdate hashing targets transaction update =
      .ok next) : next.Awaiting delta items := by
  obtain ⟨-, before, -, -, -, -, rfl⟩ := applyUpdate_eq_ok.mp hupdate
  refine ⟨hawaiting.nodup, hawaiting.current, hawaiting.at_height, ?_⟩
  intro undo hundo
  simp only [afterUpdate, Option.map_eq_some_iff] at hundo
  obtain ⟨undo', hundo', rfl⟩ := hundo
  exact hawaiting.journalled undo' hundo'

theorem Awaiting.cursor (hawaiting : write.Awaiting delta items) {c : ContractId}
    (hc : c ∈ items.map BackfillProgress.contractId) :
    ∃ cursor, write.chain.backfillProgress[c]? = some cursor ∧
      cursor.nextPosition.blockHeight = delta.anchor.height := by
  obtain ⟨item, hitem, rfl⟩ := List.mem_map.mp hc
  exact ⟨item, hawaiting.current item hitem, hawaiting.at_height item hitem⟩

theorem Replaying.withAffected (hreplaying : write.Replaying hashing undoBlocks delta)
    (stored : StoredTransaction) (affected : List ContractId) :
    (write.withAffected stored affected).Replaying hashing undoBlocks delta :=
  ⟨hreplaying.exact, hreplaying.below, hreplaying.block, hreplaying.retained, hreplaying.journalled⟩

theorem Awaiting.withAffected (hawaiting : write.Awaiting delta items)
    (stored : StoredTransaction) (affected : List ContractId) :
    (write.withAffected stored affected).Awaiting delta items :=
  ⟨hawaiting.nodup, hawaiting.current, hawaiting.at_height, hawaiting.journalled⟩

theorem Replaying.withTransaction (hreplaying : write.Replaying hashing undoBlocks delta)
    (transaction : ChainTxDelta) (affected : List ContractId) :
    (write.withTransaction transaction affected).Replaying hashing undoBlocks
      delta := by
  refine ⟨hreplaying.exact, hreplaying.below, hreplaying.block, ?_, ?_⟩
  · intro hnone
    exact hreplaying.retained (by simpa [BackfillWrite.withTransaction] using hnone)
  · intro undo hundo
    simp only [BackfillWrite.withTransaction, Option.map_eq_some_iff] at hundo
    obtain ⟨undo', hundo', rfl⟩ := hundo
    exact hreplaying.journalled undo' hundo'

theorem Awaiting.withTransaction (hawaiting : write.Awaiting delta items)
    (transaction : ChainTxDelta) (affected : List ContractId) :
    (write.withTransaction transaction affected).Awaiting delta items := by
  refine ⟨hawaiting.nodup, hawaiting.current, hawaiting.at_height, ?_⟩
  intro undo hundo
  simp only [BackfillWrite.withTransaction, Option.map_eq_some_iff] at hundo
  obtain ⟨undo', hundo', rfl⟩ := hundo
  exact hawaiting.journalled undo' hundo'

theorem applyUpdates_writes {updates : List StateUpdate}
    (hitems : items.map BackfillProgress.contractId = targets)
    (hheight : transaction.position.blockHeight = delta.anchor.height)
    (hreplaying : write.Replaying hashing undoBlocks delta) (hawaiting : write.Awaiting delta items)
    (hrow : write.RowStored transaction)
    (hupdates : updates.foldlM (BackfillWrite.applyUpdate hashing targets transaction) write =
        .ok next) :
    (next.Replaying hashing undoBlocks delta ∧ next.Awaiting delta items) ∧
      write.Writes hashing activation delta undoBlocks targets next := by
  obtain ⟨⟨hreplayed, hawaited, -⟩, hwrites⟩ := foldlM_simulates
    (R := Index.Write hashing activation delta.anchor.height ⟨{c | c ∈ targets}, ∅⟩)
    (index undoBlocks delta.anchor.height)
    (fun w => w.Replaying hashing undoBlocks delta ∧ w.Awaiting delta items ∧
      w.RowStored transaction)
    (fun _ _ _ _ hs hstep => by
      obtain ⟨⟨hreplaying', hrow'⟩, hwrites⟩ := applyUpdate_writes hheight hs.1
        (fun c hc => hs.2.1.cursor (by rw [hitems]; exact hc)) hs.2.2 hstep
      exact ⟨⟨hreplaying', hs.2.1.applyUpdate hstep, hrow'⟩, hwrites⟩)
    ⟨hreplaying, hawaiting, hrow⟩ hupdates
  exact ⟨⟨hreplayed, hawaited⟩, hwrites⟩

theorem applyBackfillTransaction_writes (hitems : items.map BackfillProgress.contractId = targets)
    (hshaped : transaction.Shaped hashing delta)
    (hreplaying : write.Replaying hashing undoBlocks delta) (hawaiting : write.Awaiting delta items)
    (happly : write.applyBackfillTransaction hashing targets transaction = .ok next) :
    (next.Replaying hashing undoBlocks delta ∧ next.Awaiting delta items) ∧
      write.Writes hashing activation delta undoBlocks targets next := by
  simp only [applyBackfillTransaction, bind_eq_ok] at happly
  obtain ⟨-, -, -, -, updated, hupdated, hstore⟩ := happly
  have hkept : updated.chain.transactions = write.chain.transactions :=
    foldlM_unchanged (fun w : BackfillWrite => w.chain.transactions)
      (fun _ _ _ hstep => transactions_applyUpdate hstep) _ hupdated
  rcases storeTransaction_ok hstore with
    ⟨stored, merged, hstored, rfl⟩ | ⟨habsent, rfl⟩
  · -- The row exists; its list of affected contracts is extended.
    rw [hkept] at hstored
    set row := transaction.toRow stored with hrow
    have hupdated' := foldlM_commute (BackfillWrite.withAffected row merged)
      (fun _ _ _ hstep => applyUpdate_withAffected row merged hstep) _ hupdated
    have hwrite : Index.Write hashing activation delta.anchor.height
        ⟨{c | c ∈ targets}, ∅⟩ (write.index undoBlocks delta.anchor.height)
        ((write.withAffected row merged).index undoBlocks
          delta.anchor.height) := .setAffected merged hstored
    have hmerged : (write.withAffected row merged).RowStored transaction :=
      ⟨merged, by simp [withAffected, hrow, ChainTxDelta.toRow]⟩
    obtain ⟨hreplayed, hwrites⟩ := applyUpdates_writes hitems hshaped.height
      (hreplaying.withAffected row merged) (hawaiting.withAffected row merged) hmerged hupdated'
    exact ⟨hreplayed, .head hwrite hwrites⟩
  · rw [hkept] at habsent
    set affected := sortDedupContracts (transaction.stateUpdates.map StateUpdate.contractId)
    have hupdated' := foldlM_commute (BackfillWrite.withTransaction transaction affected)
      (fun _ _ _ hstep => applyUpdate_withTransaction affected hstep) _ hupdated
    obtain ⟨block, hblock, hanchor, htxids⟩ := hreplaying.block
    have hindex : (write.withTransaction transaction affected).index undoBlocks
        delta.anchor.height =
        (write.index undoBlocks delta.anchor.height).putTransaction
          (transaction.toRow affected) := by
      simp only [index, Index.putTransaction, ChainTxDelta.toRow,
        hshaped.height, modifyUndo_overlayUndo hreplaying.retained]
      rfl
    have hwrite : Index.Write hashing activation delta.anchor.height
        ⟨{c | c ∈ targets}, ∅⟩ (write.index undoBlocks delta.anchor.height)
        ((write.withTransaction transaction affected).index undoBlocks delta.anchor.height) := by
      rw [hindex]
      refine .putTransaction hshaped.height hblock ⟨?_, ?_⟩ habsent
      · rw [htxids]
        exact hshaped.listed
      · rw [hanchor]
        exact hshaped.hash
    have hrow : (write.withTransaction transaction affected).RowStored transaction :=
      ⟨affected, by simp [withTransaction, ChainTxDelta.toRow]⟩
    obtain ⟨hreplayed, hwrites⟩ := applyUpdates_writes hitems hshaped.height
      (hreplaying.withTransaction transaction affected)
      (hawaiting.withTransaction transaction affected) hrow hupdated'
    exact ⟨hreplayed, .head hwrite hwrites⟩

theorem advanceTarget_writes {item : BackfillProgress} {rest : List BackfillProgress}
    (hreplaying : write.Replaying hashing undoBlocks delta)
    (hawaiting : write.Awaiting delta (item :: rest)) (htarget : item.contractId ∈ targets)
    (habove : activation < delta.anchor.height)
    (hadvance : write.advanceTarget hashing delta (delta.anchor.height + 1) item = .ok next) :
    (next.Replaying hashing undoBlocks delta ∧ next.Awaiting delta rest) ∧
      Index.Write hashing activation delta.anchor.height
        ⟨{c | c ∈ targets}, ∅⟩ (write.index undoBlocks delta.anchor.height)
        (next.index undoBlocks delta.anchor.height) := by
  obtain ⟨before, syncState, pinnedTip, journal, ready, hbefore, hcatching,
    hinsertable, hsync, hpinned, rfl⟩ := advanceTarget_ok hadvance
  have hid : before.contractId = item.contractId := hreplaying.exact.keyed _ _ hbefore
  rw [← hid] at hbefore
  have hcurrent := hawaiting.current item List.mem_cons_self
  obtain ⟨block, hblock, hanchor, htxids⟩ := hreplaying.block
  have hopen : ∀ undo, (write.index undoBlocks delta.anchor.height).undoBlocks[
      delta.anchor.height]? = some undo → write.undo = some undo := by
    intro undo hundo
    cases hrow : write.undo with
    | none => simp [index, overlayUndo, hrow, hreplaying.retained hrow] at hundo
    | some undo' => simpa [index, overlayUndo, hrow] using hundo
  set journalled := decide (item.contractId ∉ write.changedContracts) with hjournalled
  set cursor : BackfillProgress := { item with
    nextPosition := ⟨delta.anchor.height + 1, 0⟩
    lastApplied := some (delta.anchor, hashing.digest delta)
    pinnedTip } with hcursor
  have hindex : (write.advanced hashing delta (delta.anchor.height + 1) item
      before syncState pinnedTip journal ready).index undoBlocks delta.anchor.height =
      ((write.index undoBlocks delta.anchor.height).replaceContract hashing
        delta.anchor.height journalled before { before with syncState }).putProgress cursor := by
    simp only [index, advanced, Index.replaceContract, Index.putProgress,
      hjournalled, hcursor, modifyUndo_overlayUndo hreplaying.retained, hid,
      decide_not, Bool.not_eq_true', decide_eq_false_iff_not, ite_not]
  have hadvances : (write.index undoBlocks delta.anchor.height).Advances
      delta.anchor.height before.contractId item syncState cursor := by
    refine ⟨hid ▸ hcurrent, hid.symm, hawaiting.at_height item List.mem_cons_self, rfl, ?_, ?_, ?_⟩
    · intro undo hundo
      rw [hid]
      exact hawaiting.journalled undo (hopen undo hundo) item List.mem_cons_self
    · intro hready
      by_cases hsame : delta.anchor = write.chain.tip
      · exact congrArg ChainAnchor.height hsame
      · rw [hsync, if_neg hsame] at hready
        cases hready
    · intro hbehind
      have hne : delta.anchor ≠ write.chain.tip := by
        intro hsame
        rw [hsync, if_pos hsame] at hbehind
        cases hbehind
      refine ⟨hreplaying.below hne, block, hblock, ?_⟩
      rw [hanchor]
      by_cases hreached : item.pinnedTip = delta.anchor
      · exact .inl (hpinned.trans (if_pos ⟨hreached, hne.symm⟩))
      · exact .inr ⟨hpinned.trans (if_neg fun h => hreached h.1), hreached⟩
  refine ⟨⟨⟨?_, hreplaying.below, hreplaying.block, ?_, ?_⟩, ?_⟩, ?_⟩
  · exact (hreplaying.exact.removeContract hbefore).putContract hinsertable
  · intro hnone
    exact hreplaying.retained (by simpa [advanced] using hnone)
  · intro undo hundo c hc
    simp only [advanced, Option.map_eq_some_iff] at hundo
    obtain ⟨undo', hundo', rfl⟩ := hundo
    have hold := hreplaying.journalled undo' hundo' c hc
    dsimp only
    split
    · exact hold
    · rw [List.map_append]
      exact List.mem_append_left _ hold
  · have hnodup := hawaiting.nodup
    rw [List.map_cons, List.nodup_cons] at hnodup
    refine ⟨hnodup.2, ?_, fun other hother =>
      hawaiting.at_height other (List.mem_cons_of_mem _ hother), ?_⟩
    · intro other hother
      have hne : item.contractId ≠ other.contractId := fun hsame =>
        hnodup.1 (hsame ▸ List.mem_map_of_mem hother)
      simp only [advanced, Table.row_insert, if_neg hne]
      exact hawaiting.current other (List.mem_cons_of_mem _ hother)
    · intro undo hundo other hother
      simp only [advanced, Option.map_eq_some_iff] at hundo
      obtain ⟨undo', hundo', rfl⟩ := hundo
      exact hawaiting.journalled undo' hundo' other (List.mem_cons_of_mem _ hother)
  · rw [hindex]
    refine .advance (by rw [hid]; exact htarget) hbefore hcatching hinsertable
      ?_ hadvances (Nat.lt_succ_of_lt habove)
    intro hchanged undo hundo
    have hmem : item.contractId ∈ write.changedContracts := by simpa [hjournalled] using hchanged
    rw [hid]
    exact hreplaying.journalled undo (hopen undo hundo) _ hmem

theorem advanceTargets_writes (items : List BackfillProgress)
    (hreplaying : write.Replaying hashing undoBlocks delta) (hawaiting : write.Awaiting delta items)
    (htargets : ∀ item ∈ items, item.contractId ∈ targets)
    (habove : activation < delta.anchor.height)
    (hadvance : items.foldlM (BackfillWrite.advanceTarget hashing delta
      (delta.anchor.height + 1)) write = .ok next) :
    write.Writes hashing activation delta undoBlocks targets next := by
  induction items generalizing write with
  | nil =>
    simp only [List.foldlM_nil, pure_eq_ok] at hadvance
    exact hadvance ▸ .refl
  | cons item rest ih =>
    simp only [List.foldlM_cons, bind_eq_ok] at hadvance
    obtain ⟨mid, hmid, hrest⟩ := hadvance
    obtain ⟨⟨hreplayingMid, hawaitingMid⟩, hwrite⟩ := advanceTarget_writes
      hreplaying hawaiting (htargets item List.mem_cons_self) habove hmid
    exact .head hwrite (ih hreplayingMid hawaitingMid
      (fun other hother => htargets other (List.mem_cons_of_mem _ hother)) hrest)

end BackfillWrite

theorem Store.Backfills.writes {targets : List ContractId}
    {progress : List BackfillProgress} {replayed write : BackfillWrite}
    (hbackfills : store.Backfills hashing targets delta progress replayed write)
    (habove : activation < delta.anchor.height)
    (hblock : (store.chain.blocks[delta.anchor.height]?).isSome)
    (hexact : store.chain.contractTables.Exact hashing)
    (hprogress : BlockWrite.ProgressPlaced activation store.chain.backfillProgress) :
    Index.Writes hashing activation delta.anchor.height ⟨{c | c ∈ targets}, ∅⟩
      store.index (store.commitBackfill delta write).index := by
  have hids : progress.map BackfillProgress.contractId = targets :=
    readProgress_ids (fun c item hitem => (hprogress c item hitem).1) hbackfills.read
  have hcurrent : ∀ item ∈ progress,
      store.chain.backfillProgress[item.contractId]? = some item := by
    intro item hitem
    obtain ⟨c, -, hrow⟩ := readProgress_ok hbackfills.read item hitem
    rw [(hprogress c item hrow).1]
    exact hrow
  have hjournal : (store.startBackfill delta progress).index store.undoBlocks delta.anchor.height =
      store.index.journalProgress delta.anchor.height
        (progress.map fun item => ⟨item.contractId, some item⟩) := by
    simp only [BackfillWrite.index, Index.journalProgress, startBackfill, index]
    cases hrow : store.undoBlocks[delta.anchor.height]? with
    | none => simp [overlayUndo, modifyUndo, hrow]
    | some undo =>
      simp [overlayUndo, modifyUndo, hrow, UndoBlock.recordProgress]
  have hstart : (store.startBackfill delta progress).Replaying hashing store.undoBlocks delta := by
    obtain ⟨block, hblock⟩ := Option.isSome_iff_exists.mp hblock
    obtain ⟨hanchor, -, htxids⟩ := hbackfills.stored block hblock
    refine ⟨hexact, ?_, ⟨block, hblock, hanchor, htxids⟩, ?_, ?_⟩
    · exact ChainTables.height_lt_of_canonicalAnchor hbackfills.canonical
    · intro hnone
      simpa [startBackfill] using hnone
    · intro undo _ c hc
      simp [startBackfill] at hc
  have hawaiting : (store.startBackfill delta progress).Awaiting delta
      progress := by
    refine ⟨hids ▸ hbackfills.nodup, hcurrent,
      fun item hitem => (hbackfills.cursors item hitem).1, ?_⟩
    intro undo hundo item hitem
    simp only [startBackfill, Option.map_eq_some_iff] at hundo
    obtain ⟨undo', -, rfl⟩ := hundo
    exact List.mem_append_right _ (List.mem_map_of_mem hitem)
  have hopened : Index.Write hashing activation delta.anchor.height
      ⟨{c | c ∈ targets}, ∅⟩ store.index
      ((store.startBackfill delta progress).index store.undoBlocks delta.anchor.height) := by
    rw [hjournal]
    refine .journalCursors ?_ habove
    intro item hitem
    obtain ⟨hat, hpinned⟩ := hbackfills.cursors item hitem
    exact ⟨hcurrent item hitem, hat, .inl hpinned⟩
  obtain ⟨⟨hreplayed, hawaited⟩, hwritesReplay⟩ := foldlM_simulates
    (R := Index.Write hashing activation delta.anchor.height ⟨{c | c ∈ targets}, ∅⟩)
    (BackfillWrite.index store.undoBlocks delta.anchor.height)
    (fun w => w.Replaying hashing store.undoBlocks delta ∧ w.Awaiting delta progress)
    (fun _ transaction _ hmem hs hstep =>
      BackfillWrite.applyBackfillTransaction_writes hids
        (hbackfills.shaped.transactions transaction hmem) hs.1 hs.2 hstep)
    ⟨hstart, hawaiting⟩ hbackfills.replay
  have hwritesAdvance := BackfillWrite.advanceTargets_writes progress hreplayed
    hawaited (fun item hitem => hids ▸ List.mem_map_of_mem hitem) habove hbackfills.advance
  exact (Relation.ReflTransGen.head hopened hwritesReplay).trans hwritesAdvance

/-! ## Registration -/

namespace RegistrationTransactionGroup

def toRow (group : RegistrationTransactionGroup)
    (affected : List ContractId) : StoredTransaction where
  position := group.position
  blockHash := group.anchor.hash
  txid := group.txid
  rawTx := group.transaction
  affectedContractIds := affected

def Stored (chain : ChainTables) (group : RegistrationTransactionGroup) : Prop :=
  ∃ affected, chain.transactions[group.position]? = some (group.toRow affected)

end RegistrationTransactionGroup

def journalGroupRows (undoBlocks : Table ℕ UndoBlock)
    (group : RegistrationTransactionGroup) : Table ℕ UndoBlock :=
  modifyUndo undoBlocks group.position.blockHeight fun undo => { undo with
    transactionPositions := undo.transactionPositions ++ [group.position]
    outputOutpoints := undo.outputOutpoints ++ group.allOutpoints }

theorem Store.journalGroups (groups : List RegistrationTransactionGroup) (store : Store) :
    groups.foldl Store.journalGroup store = { store with
        undoBlocks := groups.foldl journalGroupRows store.undoBlocks } := by
  induction groups generalizing store with
  | nil => rfl
  | cons group rest ih =>
    rw [List.foldl_cons, ih]
    rfl

theorem modifyUndo_comm (undoBlocks : Table ℕ UndoBlock) (first second : ℕ)
    {change change' : UndoBlock → UndoBlock}
    (hcomm : ∀ undo, change (change' undo) = change' (change undo)) :
    modifyUndo (modifyUndo undoBlocks first change) second change' =
      modifyUndo (modifyUndo undoBlocks second change') first change := by
  have hcomp : change ∘ change' = change' ∘ change := funext hcomm
  apply Table.ext_rows
  intro a
  simp only [row_modifyUndo]
  by_cases hfirst : first = a <;> by_cases hsecond : second = a <;> simp [hfirst, hsecond, hcomp]

theorem journalGroupRows_comm (groups : List RegistrationTransactionGroup)
    (undoBlocks : Table ℕ UndoBlock) (height : ℕ) {change : UndoBlock → UndoBlock}
    (hcomm : ∀ undo positions outpoints,
      change { undo with
          transactionPositions := undo.transactionPositions ++ positions
          outputOutpoints := undo.outputOutpoints ++ outpoints } =
        { change undo with
          transactionPositions := (change undo).transactionPositions ++ positions
          outputOutpoints := (change undo).outputOutpoints ++ outpoints }) :
    groups.foldl journalGroupRows (modifyUndo undoBlocks height change) =
      modifyUndo (groups.foldl journalGroupRows undoBlocks) height change := by
  induction groups generalizing undoBlocks with
  | nil => rfl
  | cons group rest ih =>
    rw [List.foldl_cons, List.foldl_cons, ← ih]
    congr 1
    refine modifyUndo_comm undoBlocks height group.position.blockHeight ?_
    intro undo
    exact hcomm undo [group.position] group.allOutpoints

/-- Writes at any height which replace no record. -/
abbrev Index.LateWrites (hashing : Hashing) (activation : ℕ) (created : Set ContractRecord) :
    Index → Index → Prop :=
  Relation.ReflTransGen fun index next =>
    ∃ height, Index.Write hashing activation height ⟨∅, created⟩ index next

theorem mergeRegistrationTransactionGroup_ok {chain next : ChainTables} {inserted : Bool}
    (hmerge : chain.mergeRegistrationTransactionGroup group = .ok (next, inserted)) :
    (inserted = false ∧ ∃ stored merged,
      chain.transactions[group.position]? = some (group.toRow stored) ∧
      next = { chain with
        transactions := chain.transactions.insert group.position (group.toRow merged) }) ∨
    (inserted = true ∧ chain.transactions[group.position]? = none ∧ ∃ affected, next = { chain with
        transactions := chain.transactions.insert group.position (group.toRow affected)
        outputs := chain.outputs.insertAll
          (group.allOutpoints.map fun outpoint => (outpoint, ⟨group.position, outpoint⟩)) }) := by
  unfold ChainTables.mergeRegistrationTransactionGroup at hmerge
  split at hmerge
  · next stored hstored =>
    simp only [bind_eq_ok, require_eq_ok] at hmerge
    obtain ⟨-, ⟨hposition, hhash, htxid, hraw⟩, -, -, -, -, hmerge⟩ := hmerge
    have hrow : stored = group.toRow stored.affectedContractIds := by
      cases stored
      simp_all [RegistrationTransactionGroup.toRow]
    refine .inl ?_
    split at hmerge
    · simp only [pure_eq_ok, Prod.mk.injEq] at hmerge
      obtain ⟨rfl, rfl⟩ := hmerge
      refine ⟨rfl, stored.affectedContractIds, stored.affectedContractIds, ?_, ?_⟩
      · rw [← hrow]
        exact hstored
      · rw [← hrow, Table.insert_of_present hstored]
    · simp only [pure_eq_ok, Prod.mk.injEq] at hmerge
      obtain ⟨rfl, rfl⟩ := hmerge
      refine ⟨rfl, stored.affectedContractIds, sortDedupContracts
        (stored.affectedContractIds ++ group.newContractIds), ?_, ?_⟩
      · rw [← hrow]
        exact hstored
      · rw [RegistrationTransactionGroup.toRow, hposition, hhash, htxid, hraw]
  · next habsent =>
    simp only [bind_eq_ok, require_eq_ok, pure_eq_ok, Prod.mk.injEq] at hmerge
    obtain ⟨-, -, -, -, rfl, rfl⟩ := hmerge
    exact .inr ⟨rfl, habsent, _, rfl⟩

namespace Store

variable {registrations : List Registration} {next : Store} {created : Set ContractRecord}
  {results : List ContractRegistrationResult}

def pendingIndex (store : Store) (pending : List RegistrationTransactionGroup) : Index where
  chain := store.chain
  undoBlocks := pending.foldl journalGroupRows store.undoBlocks

theorem mergeGroup_writes {inserted : Bool} (pending : List RegistrationTransactionGroup)
    (hlisted : group.Listed store.chain.blocks)
    (hmerge : store.mergeGroup group = .ok (next, inserted)) :
    Index.LateWrites hashing activation created (store.pendingIndex pending)
        (next.pendingIndex (if inserted then pending ++ [group] else pending)) ∧
      group.Stored next.chain ∧
      (∀ other : RegistrationTransactionGroup, other.Stored store.chain → other.Stored next.chain) ∧
      next.chain.blocks = store.chain.blocks ∧
      next.chain.tip = store.chain.tip := by
  simp only [mergeGroup, bind_eq_ok, pure_eq_ok, Prod.exists, Prod.mk.injEq] at hmerge
  obtain ⟨chain, _, hchain, rfl, rfl⟩ := hmerge
  have hkeeps : ∀ (other : RegistrationTransactionGroup)
      (affected : List ContractId), other.Stored store.chain →
      (group.Stored store.chain ∨ store.chain.transactions[group.position]? = none) →
      ∃ affected', (store.chain.transactions.insert group.position
        (group.toRow affected))[other.position]? = some (other.toRow affected') := by
    rintro other affected ⟨otherAffected, hother⟩ hgroup
    rw [Table.row_insert]
    split
    · next hsame =>
      rcases hgroup with ⟨stored, hstored⟩ | habsent
      · rw [hsame, hother, Option.some.injEq] at hstored
        have hrow : group.toRow affected = other.toRow affected := by
          simp only [RegistrationTransactionGroup.toRow, StoredTransaction.mk.injEq] at hstored ⊢
          simp [hstored]
        exact ⟨affected, by rw [hrow]⟩
      · rw [hsame, hother] at habsent
        cases habsent
    · exact ⟨otherAffected, hother⟩
  rcases mergeRegistrationTransactionGroup_ok hchain with
    ⟨rfl, stored, merged, hstored, rfl⟩ | ⟨rfl, habsent, affected, rfl⟩
  · have hwrite : Index.Write hashing activation group.position.blockHeight ⟨∅, created⟩
        (store.pendingIndex pending)
        ((store.pendingIndex pending).setAffected (group.toRow stored) merged) :=
      .setAffected merged hstored
    refine ⟨.single ⟨_, hwrite⟩, ⟨merged, by simp⟩, fun other hother => hkeeps other merged hother
      (.inl ⟨stored, hstored⟩), rfl, rfl⟩
  · refine ⟨?_, ⟨affected, by simp⟩,
      fun other hother => hkeeps other affected hother (.inr habsent), rfl, rfl⟩
    obtain ⟨block, hblock, hanchor, htxid⟩ := hlisted
    have hindex : pendingIndex { store with
          chain := { store.chain with
            transactions := store.chain.transactions.insert group.position (group.toRow affected)
            outputs := store.chain.outputs.insertAll
              (group.allOutpoints.map fun outpoint => (outpoint, ⟨group.position, outpoint⟩)) } }
        (pending ++ [group]) =
        (store.pendingIndex pending).putTransaction (group.toRow affected) := by
      simp only [pendingIndex, List.foldl_append, List.foldl_cons, List.foldl_nil]
      rfl
    simp only [if_true, hindex]
    refine .single ⟨group.position.blockHeight, .putTransaction rfl hblock ⟨htxid, ?_⟩ habsent⟩
    rw [hanchor]
    rfl

theorem mergeGroups_writes (hashing : Hashing) (activation : ℕ)
    (groups : List RegistrationTransactionGroup)
    {acc next : Store × List RegistrationTransactionGroup}
    (hlisted : ∀ group ∈ groups, group.Listed acc.1.chain.blocks)
    (hmerge : groups.foldlM (fun acc group => do
        let (store, inserted) ← acc.1.mergeGroup group
        return (store, if inserted then acc.2 ++ [group] else acc.2)) acc =
      (.ok next : Except StoreError _)) :
    Index.LateWrites hashing activation created (acc.1.pendingIndex acc.2)
        (next.1.pendingIndex next.2) ∧
      (∀ group : RegistrationTransactionGroup,
        group ∈ groups ∨ group.Stored acc.1.chain → group.Stored next.1.chain) ∧
      next.1.chain.tip = acc.1.chain.tip := by
  induction groups generalizing acc with
  | nil =>
    simp only [List.foldlM_nil, pure_eq_ok] at hmerge
    subst hmerge
    exact ⟨.refl, fun group hgroup => hgroup.resolve_left (by simp), rfl⟩
  | cons group rest ih =>
    simp only [List.foldlM_cons, bind_eq_ok, pure_eq_ok, Prod.exists] at hmerge
    obtain ⟨mid, pending, ⟨store, inserted, hstep, hmid⟩, hrest⟩ := hmerge
    cases hmid
    obtain ⟨hwrites, hgroup, hkeeps, hblocks, htip⟩ :=
      mergeGroup_writes acc.2 (hlisted group List.mem_cons_self) hstep
    obtain ⟨hwritesRest, hstoredRest, htipRest⟩ := ih (by
      intro other hother
      dsimp only
      rw [hblocks]
      exact hlisted other (List.mem_cons_of_mem _ hother)) hrest
    refine ⟨hwrites.trans hwritesRest, ?_, htipRest.trans htip⟩
    rintro other (hother | hother)
    · rcases List.mem_cons.mp hother with rfl | hother
      · exact hstoredRest _ (.inr hgroup)
      · exact hstoredRest _ (.inl hother)
    · exact hstoredRest _ (.inr (hkeeps other hother))

structure Registers (activation : ℕ) (tip : ChainAnchor) (created : Set ContractRecord)
    (plan : RegistrationPlan) (registration : Registration) : Prop where
  created : registration.1 ∈ created
  above : activation < registration.1.creationPosition.blockHeight
  starts : ∀ progress, plan.newProgress.lookup registration.1.contractId = some progress →
      progress.Starts tip registration.1

theorem insertRegistration_writes {plan : RegistrationPlan}
    {registration : Registration} (pending : List RegistrationTransactionGroup)
    (hregisters : Registers activation store.chain.tip created plan registration)
    (hproduced : group.Produced registration.1) (hstored : group.Stored store.chain)
    (hinsert : store.insertRegistration hashing plan registration = .ok next) :
    Index.LateWrites hashing activation created (store.pendingIndex pending)
        (next.pendingIndex pending) ∧
      (next.chain.transactions, next.chain.tip) = (store.chain.transactions, store.chain.tip) := by
  simp only [insertRegistration] at hinsert
  split at hinsert
  · cases hinsert
    exact ⟨.refl, rfl⟩
  · next progress hlookup =>
    simp only [bind_eq_ok, ContractTables.insertContract_eq_ok, pure_eq_ok] at hinsert
    obtain ⟨_, ⟨hinsertable, rfl⟩, journal, -, rfl⟩ := hinsert
    refine ⟨?_, rfl⟩
    have hstarts := hregisters.starts progress hlookup
    set record := registration.1 with hrecord
    obtain ⟨hposition, houtputs⟩ := hproduced
    obtain ⟨affected, hrow⟩ := hstored
    rw [hposition] at hrow
    set height := record.creationPosition.blockHeight with hheight
    have hindex : pendingIndex { store with
          chain := { store.chain with
            contractTables := store.chain.contractTables.putContract hashing record
            backfillProgress := store.chain.backfillProgress.insert record.contractId progress }
          undoBlocks := modifyUndo store.undoBlocks height fun undo =>
            { undo with
              contractChanges := undo.contractChanges ++ [⟨record.contractId, none⟩]
              backfillProgressChanges := undo.backfillProgressChanges ++
                [⟨record.contractId, none⟩] }
          journal } pending =
        (((store.pendingIndex pending).createContract hashing height
          record).journalProgress height [⟨record.contractId, none⟩]).putProgress progress := by
      simp only [pendingIndex, Index.createContract, Index.putProgress,
        Index.journalProgress, modifyUndo_modifyUndo, hstarts.contractId]
      rw [journalGroupRows_comm]
      · rfl
      · intro undo positions outpoints
        rfl
    rw [hindex]
    refine .single ⟨height, .register rfl hinsertable hrow ?_ hstarts hregisters.above
      hregisters.created⟩
    intro tracked htracked
    obtain ⟨htxid, hvout⟩ := houtputs tracked htracked
    refine List.mem_map.mpr ⟨tracked.outpoint.vout, List.mem_range.mpr hvout, ?_⟩
    rw [show (group.toRow affected).txid = tracked.outpoint.txid from htxid.symm]

theorem insertRegistrations_writes {plan : RegistrationPlan}
    (pending : List RegistrationTransactionGroup)
    (hregisters : ∀ registration ∈ registrations,
      Registers activation store.chain.tip created plan registration)
    (hproduced : ∀ registration ∈ registrations, ∃ group : RegistrationTransactionGroup,
        group.Produced registration.1 ∧ group.Stored store.chain)
    (hinsert : registrations.foldlM (insertRegistration hashing plan) store = .ok next) :
    Index.LateWrites hashing activation created (store.pendingIndex pending)
      (next.pendingIndex pending) := by
  have hsimulates := foldlM_simulates
    (R := fun index next => ∃ height, Index.Write hashing activation height ⟨∅, created⟩ index next)
    (fun s : Store => s.pendingIndex pending)
    (fun s => (s.chain.transactions, s.chain.tip) = (store.chain.transactions, store.chain.tip))
    (fun s registration s' hmem hs hstep => by
      obtain ⟨group, hgroup, affected, hrow⟩ := hproduced registration hmem
      obtain ⟨hrows, htip⟩ := Prod.mk.inj hs
      have hstored : group.Stored s.chain := ⟨affected, by rw [hrows]; exact hrow⟩
      obtain ⟨hwrites, hkept⟩ := insertRegistration_writes pending
        (htip ▸ hregisters registration hmem) hgroup hstored hstep
      exact ⟨hkept.trans hs, hwrites⟩)
    rfl hinsert
  exact hsimulates.2

theorem associateHint_writes
    (plan : RegistrationPlan) (store : Store) (registration : Registration) :
    Index.LateWrites hashing activation created store.index
      (store.associateHint plan registration).index := by
  simp only [associateHint, associateRegistrationHint]
  split
  swap
  · exact .refl
  split
  · exact .refl
  · next location hlocation =>
    split
    swap
    · exact .refl
    split
    · exact .refl
    · next hint hhint =>
      split
      · exact .single ⟨location.position.blockHeight, .setHint hhint⟩
      · exact .refl

theorem associateHints_writes (hashing : Hashing) (activation : ℕ) (created : Set ContractRecord)
    (plan : RegistrationPlan) (registrations : List Registration) (store : Store) :
    Index.LateWrites hashing activation created store.index
      (registrations.foldl (associateHint plan) store).index := by
  induction registrations generalizing store with
  | nil => exact .refl
  | cons registration rest ih =>
    exact (associateHint_writes plan store registration).trans
      (ih (store.associateHint plan registration))

theorem registerContracts_writes
    (hfilled : ∀ height, store.activationAnchor.height < height →
      height ≤ store.chain.tip.height → (store.chain.blocks[height]?).isSome)
    (hregister : store.registerContracts hashing registrations = .ok (results, next)) :
    Index.LateWrites hashing store.activationAnchor.height
      {record | record ∈ registrations.map Prod.fst} store.index next.index := by
  simp only [registerContracts, writeRegistrations, bind_eq_ok, require_eq_ok,
    pure_eq_ok, Prod.mk.injEq, Prod.exists] at hregister
  obtain ⟨-, -, ids, hids, -, -, -, habove, -, -, plan, hplan, _,
    ⟨merged, inserted, hmerged, registered, hregistered, rfl⟩, -, rfl⟩ :=
    hregister
  have hsound : plan.Sound store.chain (registrations.map Prod.fst) := by
    have hempty : RegistrationPlan.Sound store.chain [] {} := by
      constructor <;> simp [RegistrationPlan.cores]
    exact hempty.preflights hfilled habove hplan
  obtain ⟨hmergeWrites, hstored, htip⟩ := mergeGroups_writes hashing
    store.activationAnchor.height plan.transactionGroups (fun group hgroup =>
      hsound.listed group.core (List.mem_map_of_mem hgroup)) hmerged
  have hregisters : ∀ registration ∈ registrations,
      Registers store.activationAnchor.height merged.chain.tip
        {record | record ∈ registrations.map Prod.fst} plan registration := by
    intro registration hmem
    refine ⟨List.mem_map_of_mem hmem, habove registration hmem, ?_⟩
    intro progress hlookup
    have hrow : (registration.1.contractId, progress) ∈ plan.newProgress := by
      obtain ⟨before, after, hsplit, -⟩ := List.lookup_eq_some_iff.mp hlookup
      rw [hsplit]
      simp
    obtain ⟨record, hrecord, hid, hstarts⟩ := hsound.progress _ hrow
    obtain ⟨other, hother, rfl⟩ := List.mem_map.mp hrecord
    obtain ⟨hnodup, hseen⟩ := validateRegistrationRecords_nodup hids List.nodup_nil
    rw [hseen, List.append_nil, List.nodup_reverse] at hnodup
    have hsame : other = registration := List.inj_on_of_nodup_map hnodup hother hmem hid
    rw [htip]
    exact hsame ▸ hstarts
  have hinsertWrites := insertRegistrations_writes inserted hregisters (fun registration hmem => by
      obtain ⟨_, hcore, hproduced⟩ := hsound.produced _ (List.mem_map_of_mem hmem)
      obtain ⟨group, hgroup, rfl⟩ := List.mem_map.mp hcore
      exact ⟨group, hproduced, hstored group (.inl hgroup)⟩) hregistered
  have hjournalled : (inserted.foldl journalGroup registered).index =
      registered.pendingIndex inserted := by
    rw [journalGroups]
    rfl
  have hhints := associateHints_writes hashing store.activationAnchor.height
    {record | record ∈ registrations.map Prod.fst} plan registrations
    (inserted.foldl journalGroup registered)
  rw [hjournalled] at hhints
  exact (hmergeWrites.trans hinsertWrites).trans hhints

def binding (store : Store) : ChainAnchor × SyncStatus × ℕ :=
  (store.activationAnchor, store.syncStatus, store.journal.epoch)

theorem registerContracts_binding
    (hregister : store.registerContracts hashing registrations = .ok (results, next)) :
    next.binding = store.binding := by
  simp only [registerContracts, writeRegistrations, mergeGroups, bind_eq_ok,
    require_eq_ok, pure_eq_ok, Prod.mk.injEq, Prod.exists] at hregister
  obtain ⟨-, -, -, -, -, -, -, -, -, -, plan, -, _,
    ⟨merged, inserted, hmerged, registered, hregistered, rfl⟩, -, rfl⟩ :=
    hregister
  have hmergedKept := foldlM_unchanged
    (fun acc : Store × List RegistrationTransactionGroup => acc.1.binding)
    (fun _ _ _ hstep => by
      simp only [mergeGroup, bind_eq_ok, pure_eq_ok, Prod.exists, Prod.mk.injEq] at hstep
      obtain ⟨_, _, ⟨chain, _, -, rfl, rfl⟩, rfl⟩ := hstep
      rfl) _ hmerged
  have hregisteredKept := foldlM_unchanged binding (fun s _ _ hstep => by
      simp only [insertRegistration] at hstep
      split at hstep
      · cases hstep
        rfl
      · simp only [bind_eq_ok, pure_eq_ok] at hstep
        obtain ⟨tables, -, journal, hjournal, rfl⟩ := hstep
        have hepoch := EventJournal.appendEvent_epoch hjournal
        simp only [binding, hepoch]) _ hregistered
  have hhints : ∀ (rest : List Registration) (s : Store),
      (rest.foldl (associateHint plan) s).binding = s.binding := by
    intro rest
    induction rest with
    | nil => exact fun s => rfl
    | cons registration rest ih =>
      intro s
      rw [List.foldl_cons, ih, associateHint]
      split <;> rfl
  rw [hhints, journalGroups]
  exact hregisteredKept.trans hmergedKept

end Store

end DeadcatNode
