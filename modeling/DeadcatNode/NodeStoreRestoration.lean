import DeadcatNode.NodeStoreOperations

/-!
# What the undo rows restore

An undo row is a list of before-images, and the oldest image of a contract is
the one a rollback ends with.  `Index.recordAt` reads off the record a contract
would have after taking back a number of blocks.  Registration and backfill
append to undo rows which are not the newest; the central lemma says how such a
write changes what would be restored at every depth.
-/

namespace DeadcatNode

open Checked

variable {changes : List ContractUndo} {c : ContractId}
  {acc' acc : ContractTables × List ContractId}

/-- The record of a contract after the changes of one row are taken back. -/
def restoredBy (changes : List ContractUndo) (c : ContractId)
    (current : Option ContractRecord) : Option ContractRecord :=
  match changes.find? (fun change => change.contractId = c) with
  | some change => change.before
  | none => current

@[simp] theorem restoredBy_nil (c : ContractId)
    (current : Option ContractRecord) : restoredBy [] c current = current := rfl

theorem restoredBy_cons (change : ContractUndo) (changes : List ContractUndo)
    (c : ContractId) (current : Option ContractRecord) : restoredBy (change :: changes) c current =
      if change.contractId = c then change.before
      else restoredBy changes c current := by
  unfold restoredBy
  by_cases hid : change.contractId = c <;> simp [List.find?, hid]

theorem restoredBy_of_notMem
    (hmem : c ∉ changes.map ContractUndo.contractId) (current : Option ContractRecord) :
    restoredBy changes c current = current := by
  induction changes with
  | nil => rfl
  | cons change rest ih =>
    simp only [List.map_cons, List.mem_cons, not_or] at hmem
    rw [restoredBy_cons, if_neg (Ne.symm hmem.1), ih hmem.2]

theorem restoredBy_append_of_mem (hmem : c ∈ changes.map ContractUndo.contractId)
    (later : List ContractUndo) (current current' : Option ContractRecord) :
    restoredBy (changes ++ later) c current = restoredBy changes c current' := by
  induction changes with
  | nil => simp at hmem
  | cons change rest ih =>
    rw [List.cons_append, restoredBy_cons, restoredBy_cons]
    by_cases hid : change.contractId = c
    · rw [if_pos hid, if_pos hid]
    · rw [if_neg hid, if_neg hid]
      apply ih
      simpa [Ne.symm hid] using hmem

theorem restoredBy_append_of_notMem (hmem : c ∉ changes.map ContractUndo.contractId)
    (later : List ContractUndo) (current : Option ContractRecord) :
    restoredBy (changes ++ later) c current = restoredBy later c current := by
  induction changes with
  | nil => rfl
  | cons change rest ih =>
    simp only [List.map_cons, List.mem_cons, not_or] at hmem
    rw [List.cons_append, restoredBy_cons, if_neg (Ne.symm hmem.1), ih hmem.2]

theorem restoredBy_append_other (changes : List ContractUndo)
    {change : ContractUndo} (hne : change.contractId ≠ c) (current : Option ContractRecord) :
    restoredBy (changes ++ [change]) c current = restoredBy changes c current := by
  by_cases hmem : c ∈ changes.map ContractUndo.contractId
  · exact restoredBy_append_of_mem hmem _ _ _
  · rw [restoredBy_append_of_notMem hmem, restoredBy_of_notMem hmem,
      restoredBy_cons, if_neg hne, restoredBy_nil]

/-! ## Replaying a row -/

theorem contracts_undoContractChange {hashing : Hashing} {change : ContractUndo}
    (htables : acc.1.Keyed) (hchange : change.Keyed)
    (hundo : undoContractChange hashing acc change = .ok acc') (c : ContractId) :
    acc'.1.contracts[c]? =
      if change.contractId = c then change.before
      else acc.1.contracts[c]? := by
  have hdropped : (dropCurrent hashing acc change.contractId).1.contracts[c]? =
      if change.contractId = c then none else acc.1.contracts[c]? := by
    unfold dropCurrent
    split
    · next current hcurrent =>
      rw [ContractTables.removeContract_contracts, Table.row_erase, htables _ _ hcurrent]
      by_cases hid : change.contractId = c <;> simp [hid]
    · next hnone =>
      split
      · next hid => rw [← hid, hnone]
      · rfl
  simp only [undoContractChange] at hundo
  split at hundo
  · next before hbefore =>
    simp only [bind_eq_ok, ContractTables.insertContract_eq_ok, pure_eq_ok] at hundo
    obtain ⟨_, ⟨-, rfl⟩, rfl⟩ := hundo
    rw [ContractTables.putContract_contracts, Table.row_insert,
      hchange before hbefore, hdropped, hbefore]
    split <;> rfl
  · next hnone =>
    simp only [pure_eq_ok] at hundo
    rw [← hundo, hdropped, hnone]

theorem contracts_undoContracts {hashing : Hashing} (hchanges : ∀ change ∈ changes, change.Keyed)
    (hexact : acc.1.Exact hashing)
    (hundo : changes.reverse.foldlM (undoContractChange hashing) acc = .ok acc') (c : ContractId) :
    acc'.1.contracts[c]? = restoredBy changes c acc.1.contracts[c]? := by
  -- the oldest change is replayed last, so the induction peels it off the end
  induction changes generalizing acc' with
  | nil =>
    simp only [List.reverse_nil, List.foldlM_nil, pure_eq_ok] at hundo
    rw [hundo, restoredBy_nil]
  | cons change rest ih =>
    rw [List.reverse_cons, List.foldlM_append] at hundo
    simp only [List.foldlM_cons, List.foldlM_nil, bind_eq_ok, pure_eq_ok] at hundo
    obtain ⟨mid, hmid, _, hlast, rfl⟩ := hundo
    have hrest := ih (fun other hother => hchanges other (List.mem_cons_of_mem _ hother)) hmid
    have hexactMid : mid.1.Exact hashing := foldlM_invariant
      (fun acc : ContractTables × List ContractId => acc.1.Exact hashing)
      (fun _ _ _ hs hstep => Index.exact_undoContractChange hs hstep) _ hexact hmid
    rw [contracts_undoContractChange hexactMid.keyed
      (hchanges change List.mem_cons_self) hlast, hrest, restoredBy_cons]

/-! ## Records at a depth -/

namespace Index

variable {depth : ℕ} {after : ContractRecord}

def changesAt (index : Index) (h : ℕ) : List ContractUndo :=
  (index.undoBlocks[h]?).elim [] UndoBlock.contractChanges

/-- The record a contract has once the last `depth` blocks are taken back. -/
def recordAt (index : Index) (c : ContractId) : ℕ → Option ContractRecord
  | 0 => index.chain.contractTables.contracts[c]?
  | depth + 1 =>
    restoredBy (index.changesAt (index.chain.tip.height - depth)) c (index.recordAt c depth)

theorem recordAt_zero (index : Index) (c : ContractId) :
    index.recordAt c 0 = index.chain.contractTables.contracts[c]? := rfl

theorem recordAt_succ (index : Index) (c : ContractId) (depth : ℕ) : index.recordAt c (depth + 1) =
      restoredBy (index.changesAt (index.chain.tip.height - depth)) c
        (index.recordAt c depth) := rfl

/-- The last `depth` blocks can be taken back. -/
def Retains (index : Index) (depth : ℕ) : Prop :=
  ∀ i < depth, (index.undoBlocks[index.chain.tip.height - i]?).isSome

/-- No touched contract is journalled above a height whose row is retained. -/
def ClearAbove (index : Index) (height : ℕ) (touched : Set ContractId) : Prop :=
  (index.undoBlocks[height]?).isSome → ∀ c ∈ touched, ∀ h, height < h →
    c ∉ (index.changesAt h).map ContractUndo.contractId

variable {hashing : Hashing} {activation height : ℕ} {touched : Set ContractId}
  {index next : Index} {c : ContractId}

theorem changesAt_of_row {h : ℕ} {undo : UndoBlock} (hundo : index.undoBlocks[h]? = some undo) :
    index.changesAt h = undo.contractChanges := by
  rw [changesAt, hundo]
  rfl

theorem changesAt_of_none {h : ℕ} (hnone : index.undoBlocks[h]? = none) :
    index.changesAt h = [] := by
  rw [changesAt, hnone]
  rfl

theorem Linked.retains_le (hlinked : index.Linked activation)
    (hretains : index.Retains depth) : depth ≤ index.chain.tip.height := by
  cases depth with
  | zero => exact Nat.zero_le _
  | succ depth =>
    obtain ⟨undo, hundo⟩ := Option.isSome_iff_exists.mp (hretains depth (Nat.lt_succ_self _))
    have hlow := (hlinked.undo _ undo hundo).1
    omega

theorem Linked.retains_of_row (hlinked : index.Linked activation)
    (hrow : (index.undoBlocks[index.chain.tip.height - depth]?).isSome) :
    index.Retains (depth + 1) := by
  intro i hi
  exact hlinked.segment _ _ hrow (by omega) (Nat.sub_le _ _)

theorem recordAt_of_clear
    (hclear : ∀ i < depth, c ∉ (index.changesAt (index.chain.tip.height - i)).map
        ContractUndo.contractId) :
    index.recordAt c depth = index.chain.contractTables.contracts[c]? := by
  induction depth with
  | zero => rfl
  | succ depth ih =>
    rw [recordAt_succ, restoredBy_of_notMem (hclear depth (Nat.lt_succ_self _))]
    exact ih fun i hi => hclear i (Nat.lt_succ_of_lt hi)

theorem recordAt_congr (htip : next.chain.tip = index.chain.tip)
    (hcontract : next.chain.contractTables.contracts[c]? = index.chain.contractTables.contracts[c]?)
    (hchanges : ∀ h current, restoredBy (next.changesAt h) c current =
      restoredBy (index.changesAt h) c current) (depth : ℕ) :
    next.recordAt c depth = index.recordAt c depth := by
  induction depth with
  | zero => exact hcontract
  | succ depth ih => rw [recordAt_succ, recordAt_succ, htip, ih, hchanges]

/-- A contract is written at a height and, if the undo row there is retained,
has an image in it. -/
structure Rewrites (height : ℕ) (c : ContractId) (after : ContractRecord)
    (index next : Index) : Prop where
  height_le : height ≤ index.chain.tip.height
  tip : next.chain.tip = index.chain.tip
  written : next.chain.contractTables.contracts[c]? = some after
  others : ∀ c', c' ≠ c → next.chain.contractTables.contracts[c']? =
    index.chain.contractTables.contracts[c']?
  changes : ∀ h,
    next.changesAt h = index.changesAt h ∧ (h = height → (index.undoBlocks[h]?).isSome →
          c ∈ (index.changesAt h).map ContractUndo.contractId) ∨
      h = height ∧ (index.undoBlocks[h]?).isSome ∧
        next.changesAt h = index.changesAt h ++ [⟨c, index.chain.contractTables.contracts[c]?⟩]

theorem Rewrites.recordAt_other
    (hrewrites : Rewrites height c after index next) {c' : ContractId} (hne : c' ≠ c) (depth : ℕ) :
    next.recordAt c' depth = index.recordAt c' depth := by
  refine recordAt_congr hrewrites.tip (hrewrites.others c' hne) ?_ depth
  intro h current
  rcases hrewrites.changes h with ⟨hsame, -⟩ | ⟨-, -, hnew⟩
  · rw [hsame]
  · rw [hnew, restoredBy_append_other _ (Ne.symm hne)]

theorem ClearAbove.recordAt (hclear : index.ClearAbove height {c})
    (hretained : (index.undoBlocks[height]?).isSome)
    (hdepth : height + depth ≤ index.chain.tip.height) :
    index.recordAt c depth = index.chain.contractTables.contracts[c]? := by
  apply recordAt_of_clear
  intro i hi
  exact hclear hretained c rfl _ (by omega)

theorem Rewrites.recordAt (hrewrites : Rewrites height c after index next)
    (hclear : index.ClearAbove height {c}) (hdepth : depth ≤ index.chain.tip.height)
    (hretains : index.Retains depth) :
    next.recordAt c depth = index.recordAt c depth ∨ height + depth ≤ index.chain.tip.height ∧
        next.recordAt c depth = some after ∧
        index.recordAt c depth = index.chain.contractTables.contracts[c]? := by
  have htop := hrewrites.height_le
  induction depth with
  | zero => exact .inr ⟨by omega, hrewrites.written, rfl⟩
  | succ depth ih =>
    rw [recordAt_succ, recordAt_succ, hrewrites.tip]
    set h := index.chain.tip.height - depth with hh
    by_cases hmem : c ∈ (index.changesAt h).map ContractUndo.contractId
    · -- the oldest image of the row decides
      left
      rcases hrewrites.changes h with ⟨hsame, -⟩ | ⟨-, -, hnew⟩
      · rw [hsame]
        simpa using restoredBy_append_of_mem hmem [] _ _
      · rw [hnew]
        exact restoredBy_append_of_mem hmem _ _ _
    · rw [restoredBy_of_notMem hmem (index.recordAt c depth)]
      rcases hrewrites.changes h with
        ⟨hsame, hjournal⟩ | ⟨hsame, hretained, hnew⟩
      · rw [hsame, restoredBy_of_notMem hmem]
        have hrest : index.Retains depth := fun i hi => hretains i (Nat.lt_succ_of_lt hi)
        rcases ih (by omega) hrest with hold | ⟨hbelow, hafter, hkept⟩
        · exact .inl hold
        · have hne : h ≠ height := fun hat =>
            hmem (hjournal hat (hretains depth (Nat.lt_succ_self _)))
          exact .inr ⟨by omega, hafter, hkept⟩
      · left
        rw [hnew, restoredBy_append_of_notMem hmem, restoredBy_cons, if_pos rfl]
        exact (hclear.recordAt (hsame ▸ hretained) (by omega)).symm

/-! ## The writes -/

theorem changesAt_kept (next : Index) {change : UndoBlock → UndoBlock}
    (hundo : next.undoBlocks = modifyUndo index.undoBlocks height change)
    (hchange : ∀ undo, (change undo).contractChanges = undo.contractChanges)
    (h : ℕ) : next.changesAt h = index.changesAt h := by
  simp only [changesAt, hundo, row_modifyUndo]
  split
  · next hh =>
    subst hh
    cases hrow : index.undoBlocks[height]? with
    | none => rfl
    | some undo => exact hchange undo
  · rfl

theorem changesAt_append (next : Index) {change : UndoBlock → UndoBlock} {new : List ContractUndo}
    (hundo : next.undoBlocks = modifyUndo index.undoBlocks height change)
    (hchange : ∀ undo, (change undo).contractChanges = undo.contractChanges ++ new) (h : ℕ) :
    next.changesAt h = index.changesAt h ∧
        (h = height → ¬(index.undoBlocks[h]?).isSome) ∨ h = height ∧ (index.undoBlocks[h]?).isSome ∧
        next.changesAt h = index.changesAt h ++ new := by
  simp only [changesAt, hundo, row_modifyUndo]
  by_cases hh : height = h
  · subst hh
    cases hrow : index.undoBlocks[height]? with
    | none => simp
    | some undo => simp [hchange]
  · simp [hh, Ne.symm hh]

theorem rewrites_createContract {record : ContractRecord}
    (hheight : height ≤ index.chain.tip.height)
    (habsent : index.chain.contractTables.contracts[record.contractId]? = none) :
    Rewrites height record.contractId record index
      (index.createContract hashing height record) := by
  refine ⟨hheight, rfl, by simp [Index.createContract], ?_, ?_⟩
  · intro c' hne
    simp [Index.createContract, Ne.symm hne]
  · intro h
    rcases changesAt_append (index.createContract hashing height record)
      rfl (fun _ => rfl) h with ⟨hsame, hnone⟩ | ⟨hh, hsome, hnew⟩
    · exact .inl ⟨hsame, fun hh hsome => absurd hsome (hnone hh)⟩
    · exact .inr ⟨hh, hsome, habsent ▸ hnew⟩

theorem rewrites_replaceContract {before : ContractRecord}
    {journalled : Bool} (hheight : height ≤ index.chain.tip.height)
    (hbefore : index.chain.contractTables.contracts[before.contractId]? = some before)
    (hid : after.contractId = before.contractId)
    (hjournalled : journalled = false → ∀ undo, index.undoBlocks[height]? = some undo →
        before.contractId ∈ undo.contractChanges.map ContractUndo.contractId) :
    Rewrites height before.contractId after index
      (index.replaceContract hashing height journalled before after) := by
  refine ⟨hheight, rfl, by simp [Index.replaceContract, hid], ?_, ?_⟩
  · intro c' hne
    simp [Index.replaceContract, hid, Ne.symm hne]
  · intro h
    cases journalled with
    | false =>
      refine .inl ⟨changesAt_kept (index.replaceContract hashing height
        false before after) rfl (fun _ => rfl) h, ?_⟩
      intro hh hsome
      obtain ⟨undo, hundo⟩ := Option.isSome_iff_exists.mp hsome
      rw [changesAt_of_row hundo]
      exact hjournalled rfl undo (hh ▸ hundo)
    | true =>
      rcases changesAt_append (index.replaceContract hashing height
        true before after) rfl (fun _ => rfl) h with
        ⟨hsame, hnone⟩ | ⟨hh, hsome, hnew⟩
      · exact .inl ⟨hsame, fun hh hsome => absurd hsome (hnone hh)⟩
      · exact .inr ⟨hh, hsome, hbefore ▸ hnew⟩

theorem Rewrites.putHistory
    (hrewrites : Rewrites height c after index next) (contractId : ContractId)
    (entry : StoredHistoryEntry) :
    Rewrites height c after index (next.putHistory contractId entry) := by
  refine ⟨hrewrites.height_le, hrewrites.tip, hrewrites.written, hrewrites.others, ?_⟩
  intro h
  rw [changesAt_kept (next.putHistory contractId entry) rfl (fun _ => rfl) h]
  exact hrewrites.changes h

theorem Rewrites.putProgress
    (hrewrites : Rewrites height c after index next) (item : BackfillProgress) :
    Rewrites height c after index (next.putProgress item) :=
  ⟨hrewrites.height_le, hrewrites.tip, hrewrites.written, hrewrites.others, hrewrites.changes⟩

theorem Rewrites.journalProgress
    (hrewrites : Rewrites height c after index next) (changes : List BackfillProgressUndo) :
    Rewrites height c after index (next.journalProgress height changes) := by
  refine ⟨hrewrites.height_le, hrewrites.tip, hrewrites.written, hrewrites.others, ?_⟩
  intro h
  rw [changesAt_kept (next.journalProgress height changes) rfl (fun _ => rfl) h]
  exact hrewrites.changes h

/-! ## Opening and unwinding a block -/

theorem Linked.changesAt_above (hlinked : index.Linked activation) {h : ℕ}
    (habove : index.chain.tip.height < h) : index.changesAt h = [] := by
  apply changesAt_of_none
  by_contra hsome
  obtain ⟨undo, hundo⟩ := Option.ne_none_iff_exists'.mp hsome
  have hle := (hlinked.undo h undo hundo).2.1
  omega

theorem changesAt_openBlock {delta : BlockDelta} {h : ℕ} (hne : delta.anchor.height ≠ h)
    (hretained : ((index.openBlock hashing delta).undoBlocks[h]?).isSome) :
    (index.openBlock hashing delta).changesAt h = index.changesAt h := by
  obtain ⟨undo, hundo⟩ := Option.isSome_iff_exists.mp hretained
  rcases undo_openBlock hundo with ⟨hsame, -⟩ | ⟨-, hold⟩
  · exact absurd hsame hne
  · rw [changesAt_of_row hundo, changesAt_of_row hold]

theorem recordAt_openBlock {delta : BlockDelta}
    (hheight : delta.anchor.height = index.chain.tip.height + 1)
    (hretains : (index.openBlock hashing delta).Retains (depth + 1)) :
    (index.openBlock hashing delta).recordAt c (depth + 1) = index.recordAt c depth := by
  have htip : (index.openBlock hashing delta).chain.tip = delta.anchor := rfl
  induction depth with
  | zero =>
    have hrow : (index.openBlock hashing delta).undoBlocks[
        delta.anchor.height]? = some { previousTip := index.chain.tip } := by
      simp [Index.openBlock]
    rw [recordAt_succ, htip, Nat.sub_zero, changesAt_of_row hrow]
    rfl
  | succ depth ih =>
    have hsame := hretains (depth + 1) (by omega)
    rw [htip, hheight] at hsame
    have hsub : index.chain.tip.height + 1 - (depth + 1) =
        index.chain.tip.height - depth := by omega
    rw [hsub] at hsame
    rw [recordAt_succ, ih fun i hi => hretains i (by omega), htip, hheight,
      hsub, changesAt_openBlock (by omega) hsame, recordAt_succ]

theorem recordAt_unwind {undo : UndoBlock} {tables : ContractTables}
    (hindex : index.WellFormed hashing activation)
    (hunwinds : index.Unwinds hashing next undo tables) (depth : ℕ) :
    next.recordAt c depth = index.recordAt c (depth + 1) := by
  obtain ⟨-, hbelow⟩ := hindex.linked.unwind hunwinds
  obtain ⟨hretained, ⟨affected, affected', hreplayed⟩, rfl⟩ := hunwinds
  have hlocal := hindex.placed.journal _ undo hretained
  induction depth with
  | zero =>
    rw [recordAt_zero, recordAt_succ, recordAt_zero, Nat.sub_zero, changesAt_of_row hretained]
    exact contracts_undoContracts hlocal.changes hindex.placed.exact hreplayed c
  | succ depth ih =>
    rw [recordAt_succ, ih, recordAt_succ index c (depth + 1)]
    dsimp only at hbelow ⊢
    have hsub : index.chain.tip.height - (depth + 1) = undo.previousTip.height - depth := by omega
    rw [hsub]
    congr 1
    simp only [changesAt, Table.row_erase]
    rw [if_neg (by omega)]

end Index

end DeadcatNode
