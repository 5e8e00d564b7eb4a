import DeadcatNode.NodeStoreInvariant

/-!
# Writing a consistent batch

A batch of creations and updates which fits the contract rows is always
written.  Its inputs are accounted for, its contracts are new or replace what
is stored, and the rows afterwards are those before with the batch applied.
-/

namespace DeadcatNode

open Checked

variable {hashing : Hashing} {record : ContractRecord} {write : BlockWrite}

/-! ## Tracked outpoints -/

namespace ContractTables

variable {tables : ContractTables}

theorem Exact.unowned (hexact : tables.Exact hashing) {outpoint : OutPoint}
    (hfree : ∀ (c : ContractId) (record : ContractRecord), tables.contracts[c]? = some record →
        ∀ tracked ∈ record.outpoints, tracked.outpoint ≠ outpoint) :
    tables.outpointOwners[outpoint]? = none := by
  by_contra hsome
  obtain ⟨owner, howner⟩ := Option.ne_none_iff_exists'.mp hsome
  obtain ⟨record, hrecord, hmem⟩ := (hexact.owner_iff outpoint owner).mp howner
  exact hfree owner.contractId record hrecord _ hmem rfl

theorem Exact.owned (hexact : tables.Exact hashing) {c : ContractId}
    (hrecord : tables.contracts[c]? = some record)
    {tracked : TrackedOutpoint} (htracked : tracked ∈ record.outpoints) :
    tables.outpointOwners[tracked.outpoint]? = some ⟨c, tracked.role⟩ :=
  (hexact.owner_iff tracked.outpoint ⟨c, tracked.role⟩).mpr ⟨record, hrecord, htracked⟩

end ContractTables

/-! ## Creations -/

theorem find?_contract_of_mem {created : List ContractRecord}
    (hids : (created.map ContractRecord.contractId).Nodup) (hrecord : record ∈ created) :
    created.find? (fun other => other.contractId = record.contractId) = some record := by
  induction created with
  | nil => cases hrecord
  | cons first rest ih =>
    simp only [List.map_cons, List.nodup_cons] at hids
    rcases List.mem_cons.mp hrecord with rfl | hrest
    · simp [List.find?]
    · have hne : first.contractId ≠ record.contractId := by
        intro hsame
        exact hids.1 (hsame ▸ List.mem_map_of_mem hrest)
      simp only [List.find?, decide_eq_false hne]
      exact ih hids.2 hrest

def rowAfterCreations (created : List ContractRecord) (c : ContractId)
    (current : Option ContractRecord) : Option ContractRecord :=
  (created.find? fun record => record.contractId = c).or current

/-- New contracts of a transaction which may be inserted one after the other. -/
structure CreationsFit (hashing : Hashing) (delta : ChainTxDelta)
    (tables : ContractTables) (created : List ContractRecord) : Prop where
  valid : ∀ record ∈ created, record.Valid hashing
  outputs : ∀ record ∈ created, ∀ tracked ∈ record.outpoints,
    tracked.outpoint.txid = delta.txid ∧ tracked.outpoint.vout < delta.rawTx.output.length
  absent : ∀ record ∈ created, tables.contracts[record.contractId]? = none
  unowned : ∀ record ∈ created, ∀ tracked ∈ record.outpoints,
    tables.outpointOwners[tracked.outpoint]? = none
  ids : (created.map ContractRecord.contractId).Nodup
  outpoints : ((created.flatMap ContractRecord.outpoints).map TrackedOutpoint.outpoint).Nodup

variable {delta : ChainTxDelta}

theorem CreationsFit.insertable {tables : ContractTables}
    {rest : List ContractRecord} (hfit : CreationsFit hashing delta tables (record :: rest)) :
    tables.Insertable hashing record where
  valid := hfit.valid record List.mem_cons_self
  absent := hfit.absent record List.mem_cons_self
  unowned := hfit.unowned record List.mem_cons_self

theorem CreationsFit.tail {tables : ContractTables}
    {rest : List ContractRecord} (hexact : tables.Exact hashing)
    (hfit : CreationsFit hashing delta tables (record :: rest)) :
    CreationsFit hashing delta (tables.putContract hashing record) rest := by
  have hnext := hexact.putContract hfit.insertable
  have hids := hfit.ids
  have houtpoints := hfit.outpoints
  simp only [List.map_cons, List.nodup_cons] at hids
  simp only [List.flatMap_cons, List.map_append, List.nodup_append] at houtpoints
  refine ⟨fun other hother => hfit.valid other (List.mem_cons_of_mem _ hother),
    fun other hother => hfit.outputs other (List.mem_cons_of_mem _ hother), ?_,
    ?_, hids.2, houtpoints.2.1⟩
  · intro other hother
    rw [ContractTables.putContract_contracts, Table.row_insert, if_neg]
    · exact hfit.absent other (List.mem_cons_of_mem _ hother)
    · intro hsame
      exact hids.1 (hsame ▸ List.mem_map_of_mem hother)
  · intro other hother tracked htracked
    apply hnext.unowned
    intro c stored hstored tracked' htracked' hsame
    rw [ContractTables.putContract_contracts, Table.row_insert] at hstored
    split at hstored
    · cases hstored
      refine houtpoints.2.2 tracked'.outpoint (List.mem_map_of_mem htracked')
        tracked.outpoint ?_ hsame
      exact List.mem_map_of_mem (List.mem_flatMap.mpr ⟨other, hother, htracked⟩)
    · have howned := hexact.owned hstored htracked'
      rw [hsame, hfit.unowned other (List.mem_cons_of_mem _ hother) tracked htracked] at howned
      cases howned

theorem find?_key_eq_none {α β : Type} [DecidableEq β] {key : α → β} {first : α} {rest : List α}
    (hnodup : ((first :: rest).map key).Nodup) :
    rest.find? (fun other => key other = key first) = none := by
  rw [List.map_cons, List.nodup_cons] at hnodup
  rw [List.find?_eq_none]
  intro other hother hsame
  exact hnodup.1 (of_decide_eq_true hsame ▸ List.mem_map_of_mem hother)

theorem BlockWrite.createContracts_ok {created : List ContractRecord}
    (hexact : write.chain.contractTables.Exact hashing)
    (hfit : CreationsFit hashing delta write.chain.contractTables created) :
    ∃ next, created.foldlM (createContract hashing delta) write = .ok next ∧
      next.journal = write.journal ∧
      next.chain = { write.chain with
        contractTables := next.chain.contractTables } ∧
      next.chain.contractTables.Exact hashing ∧
      ∀ c : ContractId, next.chain.contractTables.contracts[c]? =
        rowAfterCreations created c write.chain.contractTables.contracts[c]? := by
  induction created generalizing write with
  | nil => exact ⟨write, rfl, rfl, rfl, hexact, fun c => rfl⟩
  | cons record rest ih =>
    have hput := hexact.putContract hfit.insertable
    have hstep := createContract_eq_ok.mpr
      ⟨hfit.outputs record List.mem_cons_self, hfit.insertable, rfl⟩
    obtain ⟨next, hrest, hjournal, hchain, hnext, hrows⟩ :=
      @ih { write with
        chain := { write.chain with
          contractTables := write.chain.contractTables.putContract hashing record }
        undo := { write.undo with
          contractChanges := write.undo.contractChanges ++ [⟨record.contractId, none⟩] } }
        hput (hfit.tail hexact)
    refine ⟨next, ?_, hjournal, hchain, hnext, ?_⟩
    · rw [List.foldlM_cons, hstep, ok_bind, hrest]
    · intro c
      rw [hrows c]
      dsimp only
      rw [ContractTables.putContract_contracts, Table.row_insert]
      by_cases hc : record.contractId = c
      · have hnone := find?_key_eq_none hfit.ids
        rw [hc] at hnone
        simp [rowAfterCreations, List.find?, hc, hnone]
      · simp [rowAfterCreations, List.find?, hc]

/-! ## Updates -/

/-- An update which consumes the record it was read from and continues it in
outputs of its transaction. -/
structure StateUpdate.Follows (delta : ChainTxDelta) (before : ContractRecord)
    (update : StateUpdate) : Prop where
  state : before.state = update.oldState
  spentNodup : update.spentOutpoints.Nodup
  spentAll : ∀ tracked ∈ before.outpoints, tracked.outpoint ∈ update.spentOutpoints
  spentOnly : ∀ outpoint ∈ update.spentOutpoints,
    outpoint ∈ before.outpoints.map TrackedOutpoint.outpoint
  created : ∀ tracked ∈ update.newOutpoints,
    tracked.outpoint.txid = delta.txid ∧ tracked.outpoint.vout < delta.rawTx.output.length
  roles : (update.newOutpoints.map TrackedOutpoint.role).Nodup
  outpoints : (update.newOutpoints.map TrackedOutpoint.outpoint).Nodup

def rowAfterUpdates (updates : List StateUpdate) (c : ContractId)
    (current : Option ContractRecord) : Option ContractRecord :=
  match updates.find? fun update => update.contractId = c with
  | some update => current.map (·.updated update)
  | none => current

/-- Updates of a transaction which may be written one after the other. -/
structure UpdatesFit (delta : ChainTxDelta) (chain : ChainTables)
    (updates : List StateUpdate) : Prop where
  follows : ∀ update ∈ updates, ∃ before : ContractRecord,
    chain.contractTables.contracts[update.contractId]? = some before ∧ update.Follows delta before
  unowned : ∀ update ∈ updates, ∀ tracked ∈ update.newOutpoints,
    chain.contractTables.outpointOwners[tracked.outpoint]? = none
  ids : (updates.map StateUpdate.contractId).Nodup
  outpoints : ((updates.flatMap StateUpdate.newOutpoints).map TrackedOutpoint.outpoint).Nodup
  newEntry : ∀ update ∈ updates,
    chain.contractHistory[historyKey update.contractId delta.position]? = none

section Updates

variable {delta : ChainTxDelta} {chain : ChainTables} {update : StateUpdate}
  {before : ContractRecord}

theorem StateUpdate.Follows.allowed (hfollows : update.Follows delta before)
    (hexact : chain.contractTables.Exact hashing)
    (hbefore : chain.contractTables.contracts[update.contractId]? = some before)
    (hunowned : ∀ tracked ∈ update.newOutpoints,
      chain.contractTables.outpointOwners[tracked.outpoint]? = none)
    (hentry : chain.contractHistory[historyKey update.contractId delta.position]? = none) :
    chain.TransitionAllowed hashing delta before update := by
  have hvalid := hexact.valid _ _ hbefore
  refine ⟨hfollows.state, hfollows.spentNodup, hfollows.spentAll,
    hfollows.spentOnly, hfollows.created, ?_, hentry⟩
  refine ⟨⟨hfollows.roles, hfollows.outpoints, hvalid.scriptRoles, hvalid.scriptHashes⟩, ?_, ?_⟩
  · simp [ContractRecord.updated]
  · intro tracked htracked
    simp only [ContractTables.removeContract, Table.row_eraseAll]
    split
    · rfl
    · exact hunowned tracked htracked

theorem contracts_afterTransition (hexact : chain.contractTables.Exact hashing)
    (hbefore : chain.contractTables.contracts[update.contractId]? = some before) (c : ContractId) :
    (chain.afterTransition hashing delta before update).contractTables.contracts[c]? =
      if update.contractId = c then some (before.updated update)
      else chain.contractTables.contracts[c]? := by
  have hid : before.contractId = update.contractId := hexact.keyed _ _ hbefore
  have hid' : (before.updated update).contractId = update.contractId := hid
  simp only [ChainTables.afterTransition, ContractTables.putContract_contracts,
    ContractTables.removeContract_contracts, Table.row_insert, Table.row_erase, hid, hid']
  by_cases hc : update.contractId = c <;> simp [hc]

theorem exact_afterTransition (hexact : chain.contractTables.Exact hashing)
    (hbefore : chain.contractTables.contracts[update.contractId]? = some before)
    (hallowed : chain.TransitionAllowed hashing delta before update) :
    (chain.afterTransition hashing delta before update).contractTables.Exact
      hashing := by
  have hid : before.contractId = update.contractId := hexact.keyed _ _ hbefore
  exact (hexact.removeContract (hid ▸ hbefore)).putContract hallowed.insertable

theorem UpdatesFit.tail {rest : List StateUpdate} (hexact : chain.contractTables.Exact hashing)
    (hfit : UpdatesFit delta chain (update :: rest))
    (hbefore : chain.contractTables.contracts[update.contractId]? = some before)
    (hallowed : chain.TransitionAllowed hashing delta before update) :
    UpdatesFit delta (chain.afterTransition hashing delta before update)
      rest := by
  have hnext := exact_afterTransition hexact hbefore hallowed
  have hids := hfit.ids
  have houtpoints := hfit.outpoints
  simp only [List.map_cons, List.nodup_cons] at hids
  simp only [List.flatMap_cons, List.map_append, List.nodup_append] at houtpoints
  have hne : ∀ other ∈ rest, update.contractId ≠ other.contractId := by
    intro other hother hsame
    exact hids.1 (hsame ▸ List.mem_map_of_mem hother)
  refine ⟨?_, ?_, hids.2, houtpoints.2.1, ?_⟩
  · intro other hother
    rw [contracts_afterTransition hexact hbefore, if_neg (hne other hother)]
    exact hfit.follows other (List.mem_cons_of_mem _ hother)
  · intro other hother tracked htracked
    apply hnext.unowned
    intro c stored hstored tracked' htracked' hsame
    rw [contracts_afterTransition hexact hbefore] at hstored
    split at hstored
    · cases hstored
      refine houtpoints.2.2 tracked'.outpoint (List.mem_map_of_mem htracked')
        tracked.outpoint ?_ hsame
      exact List.mem_map_of_mem (List.mem_flatMap.mpr ⟨other, hother, htracked⟩)
    · have howned := hexact.owned hstored htracked'
      rw [hsame, hfit.unowned other (List.mem_cons_of_mem _ hother) tracked htracked] at howned
      cases howned
  · intro other hother
    simp only [ChainTables.afterTransition, Table.row_insert]
    rw [if_neg]
    · exact hfit.newEntry other (List.mem_cons_of_mem _ hother)
    · intro hsame
      have hpair := congrArg ofLex hsame
      simp only [historyKey, ofLex_toLex, Prod.mk.injEq] at hpair
      exact hne other hother hpair.1

end Updates

theorem BlockWrite.applyUpdates_ok {updates : List StateUpdate}
    (hexact : write.chain.contractTables.Exact hashing)
    (hfit : UpdatesFit delta write.chain updates) :
    ∃ next, updates.foldlM (applyUpdate hashing delta) write = .ok next ∧
      next.journal = write.journal ∧
      next.chain = { write.chain with
        contractTables := next.chain.contractTables
        contractHistory := next.chain.contractHistory } ∧
      next.chain.contractTables.Exact hashing ∧
      (∀ c : ContractId, next.chain.contractTables.contracts[c]? =
        rowAfterUpdates updates c write.chain.contractTables.contracts[c]?) ∧
      ∀ key : HistoryKey, (∀ update ∈ updates, historyKey update.contractId delta.position ≠ key) →
          next.chain.contractHistory[key]? = write.chain.contractHistory[key]? := by
  induction updates generalizing write with
  | nil =>
    exact ⟨write, rfl, rfl, rfl, hexact, fun c => rfl, fun key _ => rfl⟩
  | cons update rest ih =>
    obtain ⟨before, hbefore, hfollows⟩ := hfit.follows update List.mem_cons_self
    have hallowed := hfollows.allowed hexact hbefore (hfit.unowned update List.mem_cons_self)
      (hfit.newEntry update List.mem_cons_self)
    have hstep := applyUpdate_eq_ok.mpr ⟨before, hbefore, hallowed, rfl⟩
    obtain ⟨next, hrest, hjournal, hchain, hnext, hrows, hhistory⟩ :=
      @ih { write with
        chain := write.chain.afterTransition hashing delta before update
        undo := { write.undo with
          contractChanges := write.undo.contractChanges ++ [⟨update.contractId, some before⟩]
          historyKeys := write.undo.historyKeys ++ [(update.contractId, delta.position)] } }
        (exact_afterTransition hexact hbefore hallowed)
        (hfit.tail hexact hbefore hallowed)
    refine ⟨next, ?_, hjournal, hchain, hnext, ?_, ?_⟩
    · rw [List.foldlM_cons, hstep, ok_bind, hrest]
    · intro c
      rw [hrows c]
      dsimp only
      rw [contracts_afterTransition hexact hbefore]
      by_cases hc : update.contractId = c
      · have hnone := find?_key_eq_none hfit.ids
        subst hc
        simp [rowAfterUpdates, List.find?, hnone, hbefore]
      · simp [rowAfterUpdates, List.find?, hc]
    · intro key hkey
      rw [hhistory key fun other hother => hkey other (List.mem_cons_of_mem _ hother)]
      simp only [ChainTables.afterTransition, Table.row_insert]
      rw [if_neg (hkey update List.mem_cons_self)]

/-! ## Inputs -/

theorem lookup_of_mem {α β : Type} [DecidableEq α] {rows : List (α × β)}
    (hnodup : (rows.map Prod.fst).Nodup) {a : α} {b : β} (hrow : (a, b) ∈ rows) :
    rows.lookup a = some b := by
  induction rows with
  | nil => cases hrow
  | cons first rest ih =>
    simp only [List.map_cons, List.nodup_cons] at hnodup
    rcases List.mem_cons.mp hrow with rfl | hrest
    · rw [List.lookup_cons_self]
    · have hne : a ≠ first.1 := by
        intro hsame
        exact hnodup.1 (hsame ▸ List.mem_map_of_mem hrest)
      rw [List.lookup_cons, beq_false_of_ne hne]
      exact ih hnodup.2 hrest

theorem mem_of_lookup {α β : Type} [DecidableEq α] {rows : List (α × β)} {a : α}
    {b : β} (hlookup : rows.lookup a = some b) : (a, b) ∈ rows := by
  obtain ⟨before, after, hsplit, -⟩ := List.lookup_eq_some_iff.mp hlookup
  rw [hsplit]
  exact List.mem_append_right _ List.mem_cons_self

/-- Nothing of a transaction has been stored yet. -/
structure ChainTables.Fresh (chain : ChainTables) (position : ChainPosition)
    (txid : Txid) : Prop where
  transaction : chain.transactions[position]? = none
  history : ∀ c, chain.contractHistory[historyKey c position]? = none
  outputs : ∀ outpoint : OutPoint, outpoint.txid = txid → chain.outputs[outpoint]? = none
  owners : ∀ outpoint : OutPoint, outpoint.txid = txid →
    chain.contractTables.outpointOwners[outpoint]? = none

/-- A batch which fits the stored rows. -/
structure ChainTxDelta.Fits (hashing : Hashing) (chain : ChainTables)
    (delta : ChainTxDelta) : Prop where
  fresh : chain.Fresh delta.position delta.txid
  created : ∀ record ∈ delta.createdContracts, record.Valid hashing ∧
    chain.contractTables.contracts[record.contractId]? = none ∧
    ∀ tracked ∈ record.outpoints, tracked.outpoint.txid = delta.txid ∧
      tracked.outpoint.vout < delta.rawTx.output.length
  updates : ∀ update ∈ delta.stateUpdates, ∃ before : ContractRecord,
    chain.contractTables.contracts[update.contractId]? = some before ∧ update.Follows delta before
  inputs : ∀ update ∈ delta.stateUpdates, ∀ outpoint ∈ update.spentOutpoints,
    outpoint ∈ delta.rawTx.input.map TxIn.previousOutput
  owners : ∀ outpoint ∈ delta.rawTx.input.map TxIn.previousOutput,
    ∀ owner, chain.contractTables.outpointOwners[outpoint]? = some owner →
      owner.contractId ∈ delta.stateUpdates.map StateUpdate.contractId
  ids : (delta.createdContracts.map ContractRecord.contractId ++
    delta.stateUpdates.map StateUpdate.contractId).Nodup
  spent : (delta.stateUpdates.flatMap StateUpdate.spentOutpoints).Nodup
  outpoints : ((delta.createdContracts.flatMap ContractRecord.outpoints ++
    delta.stateUpdates.flatMap StateUpdate.newOutpoints).map TrackedOutpoint.outpoint).Nodup
  outputCount : delta.rawTx.output.length < 2 ^ 32

namespace ChainTxDelta.Fits

variable {chain : ChainTables} {delta : ChainTxDelta}

theorem validateTrackedInputs (hfits : delta.Fits hashing chain)
    (hexact : chain.contractTables.Exact hashing) :
    DeadcatNode.validateTrackedInputs chain.contractTables delta = .ok () := by
  have hkeys : (delta.stateUpdates.flatMap fun update =>
      update.spentOutpoints.map fun outpoint => (outpoint, update.contractId)).map Prod.fst =
      delta.stateUpdates.flatMap StateUpdate.spentOutpoints := by
    rw [List.map_flatMap]
    congr 1
    funext update
    rw [List.map_map]
    exact List.map_id _
  -- a declared outpoint is tracked by the contract which declares it
  have hdeclared : ∀ leg ∈ delta.stateUpdates.flatMap (fun update =>
      update.spentOutpoints.map fun outpoint => (outpoint, update.contractId)),
      leg.1 ∈ delta.rawTx.input.map TxIn.previousOutput ∧
        ∃ owner : OutpointOwner, chain.contractTables.outpointOwners[leg.1]? = some owner := by
    intro leg hleg
    obtain ⟨update, hupdate, hmem⟩ := List.mem_flatMap.mp hleg
    obtain ⟨outpoint, hspent, rfl⟩ := List.mem_map.mp hmem
    obtain ⟨before, hbefore, hfollows⟩ := hfits.updates update hupdate
    obtain ⟨tracked, htracked, hsame⟩ := List.mem_map.mp (hfollows.spentOnly outpoint hspent)
    refine ⟨hfits.inputs update hupdate outpoint hspent, ⟨update.contractId, tracked.role⟩, ?_⟩
    rw [← hsame]
    exact hexact.owned hbefore htracked
  simp only [DeadcatNode.validateTrackedInputs, bind_eq_ok, require_eq_ok,
    forM_eq_ok, exists_const, hkeys]
  refine ⟨hfits.spent, ?_, ?_⟩
  · intro leg hleg
    exact List.mem_dedup.mpr (hdeclared leg hleg).1
  · intro outpoint hinput
    cases howner : chain.contractTables.outpointOwners[outpoint]? with
    | none =>
      split
      · next heq _ => cases heq
      · next heq _ => cases heq
      · next contractId _ hlookup =>
        obtain ⟨-, owner, howned⟩ := hdeclared _ (mem_of_lookup hlookup)
        rw [howner] at howned
        cases howned
      · rfl
    | some owner =>
      obtain ⟨update, hupdate, hid⟩ := List.mem_map.mp
        (hfits.owners outpoint (List.mem_dedup.mp hinput) owner howner)
      obtain ⟨before, hbefore, hfollows⟩ := hfits.updates update hupdate
      obtain ⟨record, hrecord, hmem⟩ := (hexact.owner_iff outpoint owner).mp howner
      rw [← hid, hbefore] at hrecord
      cases hrecord
      have hspent := hfollows.spentAll _ hmem
      have hlookup : (delta.stateUpdates.flatMap fun update =>
          update.spentOutpoints.map fun outpoint => (outpoint, update.contractId)).lookup outpoint =
          some update.contractId :=
        lookup_of_mem (hkeys ▸ hfits.spent)
          (List.mem_flatMap.mpr ⟨update, hupdate, List.mem_map.mpr ⟨outpoint, hspent, rfl⟩⟩)
      rw [hlookup]
      simp [hid]

end ChainTxDelta.Fits

/-! ## The transaction -/

/-- The rows after a batch has been written. -/
structure ChainTables.WrittenBy (hashing : Hashing) (chain : ChainTables)
    (delta : ChainTxDelta) (next : ChainTables) : Prop where
  exact : next.contractTables.Exact hashing
  contracts : ∀ c : ContractId, next.contractTables.contracts[c]? =
    rowAfterUpdates delta.stateUpdates c
      (rowAfterCreations delta.createdContracts c chain.contractTables.contracts[c]?)
  transactions : ∃ affected, next.transactions =
    chain.transactions.insert delta.position (delta.toRow affected)
  outputs : next.outputs = chain.outputs.insertAll (delta.allOutpoints.map fun outpoint =>
      (outpoint, ⟨delta.position, outpoint⟩))
  history : ∀ key : HistoryKey, (ofLex key).2 ≠ delta.position →
    next.contractHistory[key]? = chain.contractHistory[key]?
  tip : next.tip = chain.tip
  blocks : next.blocks = chain.blocks
  recoveryHints : next.recoveryHints = chain.recoveryHints
  backfillProgress : next.backfillProgress = chain.backfillProgress

namespace ChainTxDelta.Fits

variable {chain : ChainTables} {delta : ChainTxDelta}

theorem creationsFit (hfits : delta.Fits hashing chain) :
    CreationsFit hashing delta chain.contractTables delta.createdContracts := by
  have hids := (List.nodup_append.mp hfits.ids).1
  have houtpoints := hfits.outpoints
  rw [List.map_append, List.nodup_append] at houtpoints
  refine ⟨fun record hrecord => (hfits.created record hrecord).1,
    fun record hrecord => (hfits.created record hrecord).2.2,
    fun record hrecord => (hfits.created record hrecord).2.1, ?_, hids, houtpoints.1⟩
  intro record hrecord tracked htracked
  exact hfits.fresh.owners _ ((hfits.created record hrecord).2.2 tracked htracked).1

theorem not_created (hfits : delta.Fits hashing chain) {update : StateUpdate}
    (hupdate : update ∈ delta.stateUpdates) :
    delta.createdContracts.find? (fun record => record.contractId = update.contractId) = none := by
  rw [List.find?_eq_none]
  intro record hrecord hsame
  refine (List.nodup_append.mp hfits.ids).2.2 record.contractId
    (List.mem_map_of_mem hrecord) update.contractId
    (List.mem_map_of_mem hupdate) (of_decide_eq_true hsame)

theorem updatesFit (hfits : delta.Fits hashing chain) {next : ChainTables}
    (hexact : chain.contractTables.Exact hashing) (hnext : next.contractTables.Exact hashing)
    (hchain : next = { chain with contractTables := next.contractTables })
    (hrows : ∀ c : ContractId, next.contractTables.contracts[c]? =
      rowAfterCreations delta.createdContracts c
        chain.contractTables.contracts[c]?) : UpdatesFit delta next delta.stateUpdates := by
  have houtpoints := hfits.outpoints
  rw [List.map_append, List.nodup_append] at houtpoints
  refine ⟨?_, ?_, (List.nodup_append.mp hfits.ids).2.1, houtpoints.2.1, ?_⟩
  · intro update hupdate
    rw [hrows, rowAfterCreations, hfits.not_created hupdate]
    exact hfits.updates update hupdate
  · intro update hupdate tracked htracked
    obtain ⟨before, -, hfollows⟩ := hfits.updates update hupdate
    apply hnext.unowned
    intro c record hrecord tracked' htracked' hsame
    rw [hrows, rowAfterCreations] at hrecord
    cases hfind : delta.createdContracts.find? (fun record => record.contractId = c) with
    | some new =>
      rw [hfind, Option.some_or] at hrecord
      cases hrecord
      refine houtpoints.2.2 tracked'.outpoint ?_ tracked.outpoint ?_ hsame
      · exact List.mem_map_of_mem (List.mem_flatMap.mpr
          ⟨record, List.mem_of_find?_eq_some hfind, htracked'⟩)
      · exact List.mem_map_of_mem (List.mem_flatMap.mpr ⟨update, hupdate, htracked⟩)
    | none =>
      rw [hfind, Option.none_or] at hrecord
      have howned := hexact.owned hrecord htracked'
      rw [hsame, hfits.fresh.owners _ (hfollows.created tracked htracked).1] at howned
      cases howned
  · intro update hupdate
    rw [hchain]
    exact hfits.fresh.history update.contractId

theorem applyChainTransaction (hfits : delta.Fits hashing chain)
    (hexact : chain.contractTables.Exact hashing)
    (hchain : write.chain = chain) (anchor : ChainAnchor)
    (hroom : write.journal.sequence + 1 < 2 ^ 64) :
    ∃ next, write.applyChainTransaction hashing anchor delta = .ok next ∧
      next.journal.sequence = write.journal.sequence + 1 ∧
      chain.WrittenBy hashing delta next.chain := by
  subst hchain
  obtain ⟨first, hfirst, hjournal, hchain, hexactFirst, hrows⟩ :=
    BlockWrite.createContracts_ok hexact hfits.creationsFit
  obtain ⟨second, hsecond, hjournal', hchain', hexactSecond, hrows', hhistory⟩ :=
    BlockWrite.applyUpdates_ok hexactFirst (hfits.updatesFit hexact hexactFirst hchain hrows)
  have hsame : second.chain = { write.chain with
      contractTables := second.chain.contractTables
      contractHistory := second.chain.contractHistory } := by
    rw [hchain', hchain]
  let affected := sortDedupContracts (delta.createdContracts.map ContractRecord.contractId ++
      delta.stateUpdates.map StateUpdate.contractId)
  obtain ⟨journal, happend, -, hsequence⟩ := EventJournal.appendEvent_of_room
    (.transactionApplied anchor delta.txid delta.position affected)
    (show second.journal.sequence + 1 < 2 ^ 64 by rwa [hjournal', hjournal])
  refine ⟨{ second.storeTransaction delta affected with journal }, ?_, ?_, ?_⟩
  · simp only [BlockWrite.applyChainTransaction,
      hfits.validateTrackedInputs hexact, ok_bind, hfirst, hsecond, require,
      hfits.outputCount, if_true]
    exact bind_eq_ok.mpr ⟨journal, happend, rfl⟩
  · rw [hsequence, hjournal', hjournal]
  · refine ⟨hexactSecond, ?_, ⟨affected, ?_⟩, ?_, ?_, ?_, ?_, ?_, ?_⟩
    · intro c
      exact (hrows' c).trans (by rw [hrows c])
    · simp only [BlockWrite.storeTransaction]
      rw [hsame]
      rfl
    · simp only [BlockWrite.storeTransaction]
      rw [hsame]
    · intro key hkey
      have hkept : ∀ update ∈ delta.stateUpdates,
          historyKey update.contractId delta.position ≠ key := by
        intro update _ hsame'
        exact hkey (by rw [← hsame']; rfl)
      exact (hhistory key hkept).trans (by rw [hchain])
    all_goals
      simp only [BlockWrite.storeTransaction]
      rw [hsame]

end ChainTxDelta.Fits

end DeadcatNode
