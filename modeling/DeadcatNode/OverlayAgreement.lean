import DeadcatNode.BatchApplication
import DeadcatNode.BlockOverlay

/-!
# The overlay follows the store

When a batch is added to the overlay and written to the tables, the lookups
through the longer overlay agree with the new tables.
-/

namespace DeadcatNode

open Checked

variable {hashing : Hashing} {update : StateUpdate} {record : ContractRecord}
  {chain next : ChainTables} {delta : ChainTxDelta}

/-! ## Owners -/

section Owners

variable {outpoint : OutPoint} {context : InterpretationContext} {resolution : OwnerResolution}

def InterpretationContext.extend (context : InterpretationContext)
    (delta : ChainTxDelta) : InterpretationContext :=
  { context with priorTransactions := context.priorTransactions ++ [delta] }

theorem ownerInContext_extend : ownerInContext (context.extend delta) outpoint =
      (resolveInDelta outpoint delta).getD (ownerInContext context outpoint) := by
  simp only [ownerInContext, InterpretationContext.extend, List.reverse_append,
    List.reverse_cons, List.reverse_nil, List.nil_append, List.cons_append, List.findSome?_cons]
  cases resolveInDelta outpoint delta <;> rfl

theorem resolveInUpdate_cases (hresolve : resolveInUpdate outpoint update = some resolution) :
    (outpoint ∈ update.spentOutpoints ∧ resolution = .spentEarlier update.contractId) ∨
      ∃ tracked ∈ update.newOutpoints, tracked.outpoint = outpoint ∧
        resolution = .live ⟨update.contractId, tracked.role⟩ := by
  unfold resolveInUpdate at hresolve
  split at hresolve
  · next hspent => exact .inl ⟨hspent, (Option.some.inj hresolve).symm⟩
  · obtain ⟨tracked, hfind, hlive⟩ := Option.map_eq_some_iff.mp hresolve
    refine .inr ⟨tracked, List.mem_of_find?_eq_some hfind, ?_, hlive.symm⟩
    simpa using List.find?_some hfind

theorem resolveInCreation_cases {contract : ContractRecord}
    (hresolve : resolveInCreation outpoint contract = some resolution) :
    ∃ tracked ∈ contract.outpoints, tracked.outpoint = outpoint ∧
      resolution = .live ⟨contract.contractId, tracked.role⟩ := by
  obtain ⟨tracked, hfind, hlive⟩ := Option.map_eq_some_iff.mp hresolve
  refine ⟨tracked, List.mem_of_find?_eq_some hfind, ?_, hlive.symm⟩
  simpa using List.find?_some hfind

theorem resolveInDelta_cases (hresolve : resolveInDelta outpoint delta = some resolution) :
    (∃ update ∈ delta.stateUpdates, outpoint ∈ update.spentOutpoints ∧
        resolution = .spentEarlier update.contractId) ∨
      (∃ update ∈ delta.stateUpdates, ∃ tracked ∈ update.newOutpoints, tracked.outpoint = outpoint ∧
          resolution = .live ⟨update.contractId, tracked.role⟩) ∨
      ∃ contract ∈ delta.createdContracts, ∃ tracked ∈ contract.outpoints,
        tracked.outpoint = outpoint ∧ resolution = .live ⟨contract.contractId, tracked.role⟩ := by
  rcases Option.or_eq_some_iff.mp hresolve with hupdate | ⟨-, hcreated⟩
  · obtain ⟨update, hmem, hresolved⟩ := List.exists_of_findSome?_eq_some hupdate
    rw [List.mem_reverse] at hmem
    rcases resolveInUpdate_cases hresolved with ⟨hspent, hsame⟩ | hnew
    · exact .inl ⟨update, hmem, hspent, hsame⟩
    · exact .inr (.inl ⟨update, hmem, hnew⟩)
  · obtain ⟨contract, hmem, hresolved⟩ := List.exists_of_findSome?_eq_some hcreated
    rw [List.mem_reverse] at hmem
    exact .inr (.inr ⟨contract, hmem, resolveInCreation_cases hresolved⟩)

theorem resolveInDelta_eq_none (hresolve : resolveInDelta outpoint delta = none) :
    (∀ update ∈ delta.stateUpdates, outpoint ∉ update.spentOutpoints ∧
        ∀ tracked ∈ update.newOutpoints, tracked.outpoint ≠ outpoint) ∧
      ∀ contract ∈ delta.createdContracts, ∀ tracked ∈ contract.outpoints,
        tracked.outpoint ≠ outpoint := by
  obtain ⟨hupdates, hcreated⟩ := Option.or_eq_none_iff.mp hresolve
  rw [List.findSome?_eq_none_iff] at hupdates hcreated
  constructor
  · intro update hmem
    have hnone := hupdates update (List.mem_reverse.mpr hmem)
    unfold resolveInUpdate at hnone
    split at hnone
    · cases hnone
    · next hunspent =>
      refine ⟨hunspent, ?_⟩
      intro tracked htracked hsame
      rw [Option.map_eq_none_iff, List.find?_eq_none] at hnone
      exact hnone tracked htracked (decide_eq_true hsame)
  · intro contract hmem tracked htracked hsame
    have hnone := hcreated contract (List.mem_reverse.mpr hmem)
    rw [resolveInCreation, Option.map_eq_none_iff, List.find?_eq_none] at hnone
    exact hnone tracked htracked (decide_eq_true hsame)

end Owners

/-! ## Rows after a batch -/

theorem find?_update_of_mem {updates : List StateUpdate}
    (hids : (updates.map StateUpdate.contractId).Nodup) (hupdate : update ∈ updates) :
    updates.find? (fun other => other.contractId = update.contractId) = some update := by
  induction updates with
  | nil => cases hupdate
  | cons first rest ih =>
    simp only [List.map_cons, List.nodup_cons] at hids
    rcases List.mem_cons.mp hupdate with rfl | hrest
    · simp [List.find?]
    · have hne : first.contractId ≠ update.contractId := by
        intro hsame
        exact hids.1 (hsame ▸ List.mem_map_of_mem hrest)
      simp only [List.find?, decide_eq_false hne]
      exact ih hids.2 hrest

theorem ChainTxDelta.Fits.updated (hfits : delta.Fits hashing chain)
    (hwritten : chain.WrittenBy hashing delta next)
    (hupdate : update ∈ delta.stateUpdates) {before : ContractRecord}
    (hbefore : chain.contractTables.contracts[update.contractId]? = some before) :
    next.contractTables.contracts[update.contractId]? = some (before.updated update) := by
  rw [hwritten.contracts, rowAfterCreations, hfits.not_created hupdate,
    rowAfterUpdates, find?_update_of_mem (List.nodup_append.mp hfits.ids).2.1 hupdate, hbefore]
  rfl

theorem ChainTxDelta.Fits.inserted (hfits : delta.Fits hashing chain)
    (hwritten : chain.WrittenBy hashing delta next) (hrecord : record ∈ delta.createdContracts) :
    next.contractTables.contracts[record.contractId]? = some record := by
  have hnone : delta.stateUpdates.find?
      (fun update => update.contractId = record.contractId) = none := by
    rw [List.find?_eq_none]
    intro update hupdate hsame
    exact (List.nodup_append.mp hfits.ids).2.2 record.contractId
      (List.mem_map_of_mem hrecord) update.contractId
      (List.mem_map_of_mem hupdate) (of_decide_eq_true hsame).symm
  rw [hwritten.contracts, rowAfterCreations, rowAfterUpdates, hnone,
    find?_contract_of_mem (List.nodup_append.mp hfits.ids).1 hrecord]
  rfl

theorem ChainTables.WrittenBy.row_cases
    (hwritten : chain.WrittenBy hashing delta next) {c : ContractId}
    (hrecord : next.contractTables.contracts[c]? = some record) :
    (∃ update ∈ delta.stateUpdates, update.contractId = c ∧
        record.outpoints = update.newOutpoints) ∨
      (record ∈ delta.createdContracts ∧ record.contractId = c) ∨
      (chain.contractTables.contracts[c]? = some record ∧
        ∀ update ∈ delta.stateUpdates, update.contractId ≠ c) := by
  rw [hwritten.contracts, rowAfterUpdates] at hrecord
  split at hrecord
  · next update hfind =>
    obtain ⟨before, -, rfl⟩ := Option.map_eq_some_iff.mp hrecord
    exact .inl ⟨update, List.mem_of_find?_eq_some hfind, by simpa using List.find?_some hfind, rfl⟩
  · next hnone =>
    rw [List.find?_eq_none] at hnone
    rcases Option.or_eq_some_iff.mp hrecord with hfind | ⟨-, hold⟩
    · exact .inr (.inl ⟨List.mem_of_find?_eq_some hfind, by simpa using List.find?_some hfind⟩)
    · refine .inr (.inr ⟨hold, ?_⟩)
      intro update hupdate hsame
      exact hnone update hupdate (decide_eq_true hsame)

theorem ChainTables.WrittenBy.kept (hwritten : chain.WrittenBy hashing delta next) {c : ContractId}
    (hcreated : ∀ record ∈ delta.createdContracts, record.contractId ≠ c)
    (hupdates : ∀ update ∈ delta.stateUpdates, update.contractId ≠ c) :
    next.contractTables.contracts[c]? = chain.contractTables.contracts[c]? := by
  have hnone : delta.createdContracts.find? (fun record => record.contractId = c) = none := by
    rw [List.find?_eq_none]
    intro record hrecord hsame
    exact hcreated record hrecord (of_decide_eq_true hsame)
  have hnone' : delta.stateUpdates.find? (fun update => update.contractId = c) = none := by
    rw [List.find?_eq_none]
    intro update hupdate hsame
    exact hupdates update hupdate (of_decide_eq_true hsame)
  rw [hwritten.contracts, rowAfterUpdates, hnone', rowAfterCreations, hnone, Option.none_or]

section OwnerRows

variable {outpoint : OutPoint} (hfits : delta.Fits hashing chain)
  (hexact : chain.contractTables.Exact hashing) (hwritten : chain.WrittenBy hashing delta next)

include hfits hexact hwritten

theorem ChainTxDelta.Fits.unowned_spent
    (hupdate : update ∈ delta.stateUpdates) (hspent : outpoint ∈ update.spentOutpoints) :
    next.contractTables.outpointOwners[outpoint]? = none := by
  obtain ⟨before, hbefore, hfollows⟩ := hfits.updates update hupdate
  obtain ⟨tracked, htracked, rfl⟩ := List.mem_map.mp (hfollows.spentOnly outpoint hspent)
  have howned := hexact.owned hbefore htracked
  -- it was owned before, so it is not an output of this transaction
  have hold : tracked.outpoint.txid ≠ delta.txid := by
    intro hsame
    rw [hfits.fresh.owners _ hsame] at howned
    cases howned
  apply hwritten.exact.unowned
  intro c record hrecord other hother hsame
  rcases hwritten.row_cases hrecord with
    ⟨update', hupdate', -, houtpoints⟩ | ⟨hcreated, -⟩ | ⟨hrow, hkept⟩
  · obtain ⟨_, _, hfollows'⟩ := hfits.updates update' hupdate'
    rw [houtpoints] at hother
    exact hold (hsame ▸ (hfollows'.created other hother).1)
  · exact hold (hsame ▸ ((hfits.created record hcreated).2.2 other hother).1)
  · exact hkept update hupdate (hexact.unique_owner hbefore hrow htracked hother hsame.symm)

theorem ChainTxDelta.Fits.owner_kept
    (hnone : resolveInDelta outpoint delta = none) :
    next.contractTables.outpointOwners[outpoint]? =
      chain.contractTables.outpointOwners[outpoint]? := by
  obtain ⟨hupdates, hcreated⟩ := resolveInDelta_eq_none hnone
  ext owner
  rw [hwritten.exact.owner_iff, hexact.owner_iff]
  constructor
  · rintro ⟨record, hrecord, hmem⟩
    rcases hwritten.row_cases hrecord with
      ⟨update, hupdate, -, houtpoints⟩ | ⟨hnew, -⟩ | ⟨hrow, -⟩
    · rw [houtpoints] at hmem
      exact absurd rfl ((hupdates update hupdate).2 _ hmem)
    · exact absurd rfl (hcreated record hnew _ hmem)
    · exact ⟨record, hrow, hmem⟩
  · rintro ⟨record, hrecord, hmem⟩
    refine ⟨record, ?_, hmem⟩
    rw [hwritten.kept]
    · exact hrecord
    · intro created hmem' hsame
      have habsent := (hfits.created created hmem').2.1
      rw [hsame, hrecord] at habsent
      cases habsent
    · intro update hupdate hsame
      obtain ⟨before, hbefore, hfollows⟩ := hfits.updates update hupdate
      rw [hsame, hrecord] at hbefore
      cases hbefore
      exact (hupdates update hupdate).1 (hfollows.spentAll _ hmem)

theorem ChainTxDelta.Fits.owners_extend
    {context : InterpretationContext}
    (hagrees : ∀ owner, ownerInContext context outpoint = .live owner ↔
      chain.contractTables.outpointOwners[outpoint]? = some owner)
    (owner : OutpointOwner) : ownerInContext (context.extend delta) outpoint = .live owner ↔
      next.contractTables.outpointOwners[outpoint]? = some owner := by
  rw [ownerInContext_extend]
  cases hresolve : resolveInDelta outpoint delta with
  | none =>
    rw [Option.getD_none, hfits.owner_kept hexact hwritten hresolve]
    exact hagrees owner
  | some resolution =>
    rw [Option.getD_some]
    rcases resolveInDelta_cases hresolve with
      ⟨update, hupdate, hspent, rfl⟩ |
      ⟨update, hupdate, tracked, htracked, rfl, rfl⟩ |
      ⟨contract, hcontract, tracked, htracked, rfl, rfl⟩
    · rw [hfits.unowned_spent hexact hwritten hupdate hspent]
      simp
    · obtain ⟨before, hbefore, -⟩ := hfits.updates update hupdate
      have hrow := hfits.updated hwritten hupdate hbefore
      rw [hwritten.exact.owned hrow htracked]
      simp
    · have hrow := hfits.inserted hwritten hcontract
      rw [hwritten.exact.owned hrow htracked]
      simp

end OwnerRows

/-! ## Records -/

section Records

variable {c : ContractId} {asOf : ChainAnchor} {current : Option ContractRecord}

theorem filter_update_eq {updates : List StateUpdate}
    (hids : (updates.map StateUpdate.contractId).Nodup) :
    updates.filter (fun update => update.contractId = c) =
      (updates.find? fun update => update.contractId = c).toList := by
  induction updates with
  | nil => rfl
  | cons first rest ih =>
    simp only [List.map_cons, List.nodup_cons] at hids
    by_cases hc : first.contractId = c
    · have hnone : rest.filter (fun update => update.contractId = c) = [] := by
        rw [List.filter_eq_nil_iff]
        intro other hother hsame
        refine hids.1 (hc ▸ ?_)
        rw [← of_decide_eq_true hsame]
        exact List.mem_map_of_mem hother
      simp [hc, hnone]
    · simp [hc, ih hids.2]

theorem normalizeReadyAnchor_updated (update : StateUpdate) :
    normalizeReadyAnchor (record.updated update) asOf =
      (normalizeReadyAnchor record asOf).updated update := by
  cases hsync : record.syncState <;> simp [normalizeReadyAnchor, ContractRecord.updated, hsync]

theorem ChainTxDelta.Fits.overlayDelta (hfits : delta.Fits hashing chain)
    (hwritten : chain.WrittenBy hashing delta next)
    (hcurrent : current.map (normalizeReadyAnchor · asOf) =
      (chain.contractTables.contracts[c]?).map (normalizeReadyAnchor · asOf)) :
    ∃ after, DeadcatNode.overlayDelta c current delta = .ok after ∧
      after.map (normalizeReadyAnchor · asOf) =
        (next.contractTables.contracts[c]?).map (normalizeReadyAnchor · asOf) := by
  have hnodup := List.nodup_append.mp hfits.ids
  unfold DeadcatNode.overlayDelta
  rw [filter_update_eq hnodup.2.1]
  cases hcreated : delta.createdContracts.find? (fun record => record.contractId = c) with
  | some record =>
    have hrecord := List.mem_of_find?_eq_some hcreated
    have hid : record.contractId = c := by simpa using List.find?_some hcreated
    subst hid
    have hrow := hfits.inserted hwritten hrecord
    have hnone : delta.stateUpdates.find?
        (fun update => update.contractId = record.contractId) = none := by
      rw [List.find?_eq_none]
      intro update hupdate hsame
      exact hnodup.2.2 record.contractId (List.mem_map_of_mem hrecord)
        update.contractId (List.mem_map_of_mem hupdate) (of_decide_eq_true hsame).symm
    rw [(hfits.created record hrecord).2.1] at hcurrent
    have hempty : current = none := by simpa using hcurrent
    refine ⟨some record, ?_, by rw [hrow]⟩
    simp [hempty, hnone, require]
  | none =>
    cases hupdated : delta.stateUpdates.find? (fun update => update.contractId = c) with
    | none =>
      refine ⟨current, by simp, ?_⟩
      rw [hcurrent, hwritten.contracts, rowAfterUpdates, hupdated,
        rowAfterCreations, hcreated, Option.none_or]
    | some update =>
      have hupdate := List.mem_of_find?_eq_some hupdated
      have hid : update.contractId = c := by simpa using List.find?_some hupdated
      subst hid
      obtain ⟨before, hbefore, hfollows⟩ := hfits.updates update hupdate
      rw [hbefore, Option.map_some, Option.map_eq_some_iff] at hcurrent
      obtain ⟨record, rfl, hsame⟩ := hcurrent
      obtain ⟨syncState, rfl⟩ := exists_syncState_of_normalized hsame
      refine ⟨some (({ before with syncState } : ContractRecord).updated update), ?_, ?_⟩
      · simp only [pure_bind, Option.toList_some, List.foldlM_cons,
          List.foldlM_nil, overlayUpdate, ensureCompleteSpend, bind_eq_ok,
          okOr_eq_ok, require_eq_ok, pure_eq_ok]
        exact ⟨_, ⟨_, rfl, (), hfollows.state, (), ⟨hfollows.spentNodup,
          hfollows.spentAll, hfollows.spentOnly⟩, rfl⟩, rfl⟩
      · rw [hfits.updated hwritten hupdate hbefore, Option.map_some,
          Option.map_some, normalizeReadyAnchor_updated, normalizeReadyAnchor_updated, hsame]

end Records

/-! ## Outputs -/

/-- Every output row refers to a stored transaction. -/
def ChainTables.RefsStored (chain : ChainTables) : Prop :=
  ∀ (outpoint : OutPoint) (ref : StoredOutputRef),
    chain.outputs[outpoint]? = some ref → ∃ row, chain.transactions[ref.position]? = some row

theorem mem_allOutpoints_iff (outpoint : OutPoint) :
    outpoint ∈ delta.allOutpoints ↔ outpoint.txid = delta.txid ∧
      outpoint.vout < delta.rawTx.output.length := by
  simp only [ChainTxDelta.allOutpoints, List.mem_map, List.mem_range]
  constructor
  · rintro ⟨vout, hvout, rfl⟩
    exact ⟨rfl, hvout⟩
  · rintro ⟨htxid, hvout⟩
    exact ⟨outpoint.vout, hvout, by rw [← htxid]⟩

theorem ChainTables.WrittenBy.output_iff
    (hwritten : chain.WrittenBy hashing delta next) (outpoint : OutPoint) (ref : StoredOutputRef) :
    next.outputs[outpoint]? = some ref ↔
      outpoint ∈ delta.allOutpoints ∧ ref = ⟨delta.position, outpoint⟩ ∨
        outpoint ∉ delta.allOutpoints ∧ chain.outputs[outpoint]? = some ref := by
  rw [hwritten.outputs]
  exact Index.row_outputs chain.outputs (delta.toRow []) outpoint ref

theorem ChainTables.RefsStored.written (hrefs : chain.RefsStored)
    (hwritten : chain.WrittenBy hashing delta next) : next.RefsStored := by
  intro outpoint ref href
  obtain ⟨affected, htransactions⟩ := hwritten.transactions
  rw [htransactions, Table.row_insert]
  split
  · exact ⟨_, rfl⟩
  · next hne =>
    rcases (hwritten.output_iff outpoint ref).mp href with
      ⟨-, rfl⟩ | ⟨-, hold⟩
    · exact absurd rfl hne
    · exact hrefs outpoint ref hold

theorem ChainTxDelta.Fits.output (hfits : delta.Fits hashing chain) (hrefs : chain.RefsStored)
    (hwritten : chain.WrittenBy hashing delta next) (store : Store) (outpoint : OutPoint) :
    Store.output { store with chain := next } outpoint =
      if outpoint.txid = delta.txid then
        .ok ((delta.rawTx.output[outpoint.vout]?).map fun output =>
          ⟨delta.position, outpoint, output⟩)
      else Store.output { store with chain } outpoint := by
  obtain ⟨affected, htransactions⟩ := hwritten.transactions
  by_cases htxid : outpoint.txid = delta.txid
  · rw [if_pos htxid]
    by_cases hvout : outpoint.vout < delta.rawTx.output.length
    · have hrow := (hwritten.output_iff outpoint _).mpr
        (.inl ⟨(mem_allOutpoints_iff outpoint).mpr ⟨htxid, hvout⟩, rfl⟩)
      simp [Store.output, hrow, htransactions, okOr, ChainTxDelta.toRow, hvout]
    · have hnone : next.outputs[outpoint]? = none := by
        by_contra hsome
        obtain ⟨ref, href⟩ := Option.ne_none_iff_exists'.mp hsome
        rcases (hwritten.output_iff outpoint ref).mp href with
          ⟨hmem, -⟩ | ⟨-, hold⟩
        · exact hvout ((mem_allOutpoints_iff outpoint).mp hmem).2
        · rw [hfits.fresh.outputs outpoint htxid] at hold
          cases hold
      have hlength : delta.rawTx.output[outpoint.vout]? = none :=
        List.getElem?_eq_none (not_lt.mp hvout)
      simp [Store.output, hnone, hlength]
  · rw [if_neg htxid]
    have hnot : outpoint ∉ delta.allOutpoints := fun hmem =>
      htxid ((mem_allOutpoints_iff outpoint).mp hmem).1
    have hsame : next.outputs[outpoint]? = chain.outputs[outpoint]? := by
      ext ref
      rw [hwritten.output_iff]
      simp [hnot]
    simp only [Store.output, hsame]
    cases href : chain.outputs[outpoint]? with
    | none => rfl
    | some ref =>
      obtain ⟨row, hrow⟩ := hrefs outpoint ref href
      have hne : delta.position ≠ ref.position := by
        intro heq
        rw [← heq, hfits.fresh.transaction] at hrow
        cases hrow
      dsimp only
      rw [htransactions, Table.row_insert, if_neg hne]

theorem materializeOutput_extend {context : InterpretationContext} (tracked : TrackedOutpoint) :
    materializeOutput (context.extend delta) tracked =
      if delta.txid = tracked.outpoint.txid then do
        let txout ← okOr delta.rawTx.output[tracked.outpoint.vout]?
          (.missingOutput tracked.outpoint)
        return ⟨tracked.outpoint, txout⟩
      else materializeOutput context tracked := by
  simp only [materializeOutput, InterpretationContext.extend,
    List.reverse_append, List.reverse_cons, List.reverse_nil, List.nil_append,
    List.cons_append, List.find?_cons]
  by_cases hsame : delta.txid = tracked.outpoint.txid <;> simp [hsame]

/-! ## The step -/

/-- Lookups through the overlay agree with tables which are in order. -/
structure Overlay (hashing : Hashing) (context : InterpretationContext)
    (chain : ChainTables) : Prop where
  exact : chain.contractTables.Exact hashing
  refs : chain.RefsStored
  tip : chain.tip = context.store.chain.tip
  agrees : context.Agrees { context.store with chain }

namespace Overlay

variable {context : InterpretationContext}

theorem contract_eq (hoverlay : Overlay hashing context chain) (c : ContractId) :
    Store.contract { context.store with chain } c = (chain.contractTables.contracts[c]?).map
        (normalizeReadyAnchor · context.store.chain.tip) := by
  rw [← hoverlay.tip]
  rfl

theorem contract_cases (hoverlay : Overlay hashing context chain) (c : ContractId) :
    (contractInContext context c = .ok none ∧ chain.contractTables.contracts[c]? = none) ∨
      ∃ record syncState, chain.contractTables.contracts[c]? = some record ∧
        contractInContext context c = .ok (some { record with syncState }) := by
  rcases hoverlay.agrees.contract_cases c with
    ⟨hfound, hstored⟩ | ⟨record, syncState, hstored, hfound⟩
  · rw [hoverlay.contract_eq] at hstored
    exact .inl ⟨hfound, Option.map_eq_none_iff.mp hstored⟩
  · rw [hoverlay.contract_eq, Option.map_eq_some_iff] at hstored
    obtain ⟨stored, hrow, rfl⟩ := hstored
    obtain ⟨_, hnormal⟩ := normalizeReadyAnchor_eq stored context.store.chain.tip
    rw [hnormal] at hfound
    exact .inr ⟨stored, syncState, hrow, hfound⟩

theorem keyed (hoverlay : Overlay hashing context chain) : context.Keyed := by
  intro c record hfound
  rcases hoverlay.contract_cases c with
    ⟨hnone, -⟩ | ⟨stored, syncState, hrow, hsome⟩
  · rw [hfound] at hnone
    cases hnone
  · rw [hfound] at hsome
    cases hsome
    exact hoverlay.exact.keyed c stored hrow

theorem extend (hoverlay : Overlay hashing context chain) (hfits : delta.Fits hashing chain)
    (hwritten : chain.WrittenBy hashing delta next) :
    Overlay hashing (context.extend delta) next := by
  have hagrees := hoverlay.agrees
  refine ⟨hwritten.exact, hoverlay.refs.written hwritten,
    hwritten.tip.trans hoverlay.tip, ?_, ?_, ?_⟩
  · intro outpoint owner
    exact hfits.owners_extend hoverlay.exact hwritten (hagrees.owners outpoint) owner
  · intro c
    obtain ⟨current, hcurrent, hsame⟩ := hagrees.contracts c
    have hstored : current.map (normalizeReadyAnchor · context.anchor) =
        (chain.contractTables.contracts[c]?).map (normalizeReadyAnchor · context.anchor) := by
      rw [hsame, hoverlay.contract_eq, Option.map_map]
      congr 1
      funext record
      exact normalizeReadyAnchor_twice record context.anchor _
    obtain ⟨after, hafter, hnext⟩ := hfits.overlayDelta hwritten hstored
    refine ⟨after, ?_, ?_⟩
    · have hfold : contractInContext (context.extend delta) c =
          contractInContext context c >>= fun current => overlayDelta c current delta := by
        simp [contractInContext, InterpretationContext.extend, List.foldlM_append]
      rw [hfold, hcurrent, ok_bind, hafter]
    · refine hnext.trans ?_
      rw [show Store.contract { (context.extend delta).store with chain := next } c =
        (next.contractTables.contracts[c]?).map
          (normalizeReadyAnchor · next.tip) from rfl, Option.map_map]
      congr 1
      funext record
      exact (normalizeReadyAnchor_twice record context.anchor next.tip).symm
  · intro tracked
    rw [materializeOutput_extend]
    have hstored : materializeOutput ((context.extend delta).against
        { (context.extend delta).store with chain := next }) tracked = (do
          let stored ← (Store.output { context.store with chain := next }
            tracked.outpoint).mapError .store
          let stored ← okOr stored (.missingOutput tracked.outpoint)
          return ⟨stored.outpoint, stored.output⟩) := rfl
    rw [hstored, hfits.output hoverlay.refs hwritten]
    by_cases htxid : delta.txid = tracked.outpoint.txid
    · rw [if_pos htxid, if_pos htxid.symm]
      cases delta.rawTx.output[tracked.outpoint.vout]? <;> rfl
    · rw [if_neg htxid, if_neg (Ne.symm htxid)]
      exact hagrees.outputs tracked

theorem fits {crypto : MarketCrypto} (hoverlay : Overlay crypto.toHashing context chain)
    {transaction : Transaction} {result : TransactionInterpretation}
    (hread : result.ReadFrom crypto context transaction) (hash : BlockHash)
    (hfresh : chain.Fresh context.position (crypto.txid transaction))
    (hcount : transaction.output.length < 2 ^ 32) :
    ChainTxDelta.Fits crypto.toHashing chain {
      position := context.position
      blockHash := hash
      txid := crypto.txid transaction
      rawTx := transaction
      createdContracts := result.createdContracts
      stateUpdates := result.stateUpdates } := by
  refine ⟨hfresh, ?_, ?_, ?_, ?_, hread.contracts, hread.spent, hread.outpoints, hcount⟩
  · intro record hrecord
    obtain ⟨hfound, hnew⟩ := hread.created record hrecord
    refine ⟨hfound.valid, ?_, hfound.outputs⟩
    rcases hoverlay.contract_cases record.contractId with
      ⟨-, hnone⟩ | ⟨stored, syncState, -, hsome⟩
    · exact hnone
    · rw [hnew] at hsome
      cases hsome
  · intro update hupdate
    obtain ⟨record, hfound, hfrom⟩ := hread.updates update hupdate
    rcases hoverlay.contract_cases update.contractId with
      ⟨hnone, -⟩ | ⟨stored, syncState, hrow, hsome⟩
    · rw [hfound] at hnone
      cases hnone
    · rw [hfound] at hsome
      cases hsome
      exact ⟨stored, hrow, hfrom.oldState.symm, hfrom.nodup, hfrom.all,
        hfrom.only, hfrom.created, hfrom.roles, hfrom.outpoints⟩
  · intro update hupdate outpoint hspent
    obtain ⟨record, -, hfrom⟩ := hread.updates update hupdate
    exact hfrom.inputs outpoint hspent
  · intro outpoint houtpoint owner howner
    obtain ⟨input, hinput, rfl⟩ := List.mem_map.mp houtpoint
    exact hread.owners input hinput owner ((hoverlay.agrees.owners _ owner).mpr howner)

end Overlay

end DeadcatNode
