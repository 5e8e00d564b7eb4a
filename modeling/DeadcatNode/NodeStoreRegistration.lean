import DeadcatNode.NodeStoreRollback

/-!
# Late registration

`registerContracts` persists contracts whose creation was verified after the
creation block had been indexed.  The whole batch is checked first; nothing is
written when one of its contracts conflicts.  Rows which the registration adds
below a retained undo row are entered in that row.
-/

namespace DeadcatNode

open Checked

/-- Canonical transaction evidence shared by all registrations at one chain
position. -/
structure RegistrationTransactionGroup where
  position : ChainPosition
  anchor : ChainAnchor
  transaction : Transaction
  txid : Txid
  existingContractIds : List ContractId
  newContractIds : List ContractId
deriving DecidableEq

namespace RegistrationTransactionGroup

def outputCount (group : RegistrationTransactionGroup) : ℕ :=
  group.transaction.output.length

def allOutpoints (group : RegistrationTransactionGroup) : List OutPoint :=
  (List.range group.outputCount).map fun vout => ⟨group.txid, vout⟩

end RegistrationTransactionGroup

structure ContractRegistrationResult where
  record : ContractRecord
  inserted : Bool
deriving DecidableEq

structure RegistrationPlan where
  existingRecords : List (ContractId × ContractRecord) := []
  newProgress : List (ContractId × BackfillProgress) := []
  proposedOwners : List (OutPoint × ContractId) := []
  claimedHintLocations : List RecoveryHintLocation := []
  ambiguousHintLocations : List RecoveryHintLocation := []
  transactionGroups : List RegistrationTransactionGroup := []

abbrev Registration : Type := ContractRecord × RegistrationEvidence

def normalizeReadyAnchor (record : ContractRecord) (asOf : ChainAnchor) : ContractRecord :=
  match record.syncState with
  | .ready _ => { record with syncState := .ready asOf }
  | .catchingUp _ => record

def declarationFromRecord (record : ContractRecord) : ContractDeclaration :=
  ⟨record.contractId, record.params⟩

def registrationIdentityMatches (existing registration : ContractRecord) : Prop :=
  existing.contractId = registration.contractId ∧ existing.kind = registration.kind ∧
    existing.params = registration.params ∧
    existing.creationPosition = registration.creationPosition ∧
    existing.scripts = registration.scripts ∧ existing.assets = registration.assets

instance (existing registration : ContractRecord) :
    Decidable (registrationIdentityMatches existing registration) :=
  inferInstanceAs (Decidable (_ ∧ _))

/-! ## Checks on one registration -/

def validateRegistrationRecord (hashing : Hashing) (seen : List ContractId)
    (registration : Registration) : Except StoreError (List ContractId) := do
  let record := registration.1
  record.validate hashing
  require (record.contractId ∉ seen)
    (.invalidRegistrationEvidence "registration batch contains a duplicate contract ID")
  require (record.syncState.isCatchingUp = true)
    (.invalidContract "late registration must begin in CatchingUp state")
  return record.contractId :: seen

def validateRegistrationTransactionPosition (chain : ChainTables)
    (position : ChainPosition) (anchor : ChainAnchor) (txid : Txid) : Except StoreError Unit :=
  match chain.blocks[anchor.height]? with
  | some block =>
    require (block.anchor = anchor ∧ block.orderedTxids[position.txIndex]? = some txid)
      (.invalidRegistrationEvidence "creation transaction is not at its claimed canonical position")
  | none => .ok ()

def validateRegistrationEvidence (record : ContractRecord) (txid : Txid)
    (outputCount : ℕ) : Except StoreError Unit := do
  require (txid = record.contractId.txid)
    (.invalidRegistrationEvidence "creation transaction ID does not match the contract ID")
  require (record.contractId.vout < outputCount) (.invalidRegistrationEvidence
      "contract creation anchor is absent from the creation transaction")
  require (∃ tracked ∈ record.outpoints, tracked.outpoint = record.contractId.creationAnchor)
    (.invalidRegistrationEvidence "contract creation anchor is not one of the initial live outputs")
  require (∀ tracked ∈ record.outpoints,
      tracked.outpoint.txid = txid ∧ tracked.outpoint.vout < outputCount)
    (.invalidRegistrationEvidence "initial live outpoint is absent from the creation transaction")

def RegistrationPlan.group (hashing : Hashing) (chain : ChainTables)
    (plan : RegistrationPlan) (record : ContractRecord) (evidence : RegistrationEvidence) :
    Except StoreError (RegistrationPlan × RegistrationTransactionGroup) :=
  match plan.transactionGroups.find? fun group => group.position = record.creationPosition with
  | some group => do
      require (group.anchor = evidence.anchor ∧ group.transaction = evidence.transaction)
        (.registrationTransactionConflict record.creationPosition)
      return (plan, group)
  | none => do
      let txid := hashing.txid evidence.transaction
      require (∀ group ∈ plan.transactionGroups, group.txid ≠ txid)
        (.registrationTransactionConflict record.creationPosition)
      require (evidence.transaction.output.length < 2 ^ 32)
        (.invalidRegistrationEvidence "creation output count exceeds u32")
      validateRegistrationTransactionPosition chain record.creationPosition evidence.anchor txid
      let group : RegistrationTransactionGroup :=
        ⟨record.creationPosition, evidence.anchor, evidence.transaction, txid, [], []⟩
      return ({ plan with
        transactionGroups := plan.transactionGroups ++ [group] }, group)

def RegistrationPlan.modifyGroup (plan : RegistrationPlan) (position : ChainPosition)
    (change : RegistrationTransactionGroup → RegistrationTransactionGroup) :
    RegistrationPlan :=
  { plan with
    transactionGroups := plan.transactionGroups.map fun group =>
      if group.position = position then change group else group }

/-- Claims on one hint location beyond the first make it ambiguous. -/
def RegistrationPlan.claimHint (plan : RegistrationPlan)
    (associatedHint : Option RecoveryHintLocation) : RegistrationPlan :=
  match associatedHint with
  | none => plan
  | some location =>
    if location ∈ plan.claimedHintLocations then
      { plan with
        ambiguousHintLocations := location :: plan.ambiguousHintLocations }
    else
      { plan with
        claimedHintLocations := location :: plan.claimedHintLocations }

def RegistrationPlan.claimOutpoint (tables : ContractTables)
    (contractId : ContractId) (plan : RegistrationPlan)
    (tracked : TrackedOutpoint) : Except StoreError RegistrationPlan :=
  match plan.proposedOwners.lookup tracked.outpoint with
  | some owner => .error (.outpointAlreadyOwned tracked.outpoint owner)
  | none =>
    match tables.outpointOwners[tracked.outpoint]? with
    | some owner =>
      .error (.outpointAlreadyOwned tracked.outpoint owner.contractId)
    | none =>
      .ok { plan with
        proposedOwners := (tracked.outpoint, contractId) :: plan.proposedOwners }

def initialProgress (tip : ChainAnchor) (record : ContractRecord) :
    Except StoreError BackfillProgress := do
  let txIndex ← okOr (checkedAdd 32 record.creationPosition.txIndex 1) .positionOverflow
  return {
    contractId := record.contractId
    pinnedTip := tip
    nextPosition := ⟨record.creationPosition.blockHeight, txIndex⟩
    lastApplied := none }

def RegistrationPlan.enter (chain : ChainTables) (plan : RegistrationPlan)
    (record : ContractRecord) : Except StoreError RegistrationPlan :=
  match chain.contractTables.contracts[record.contractId]? with
  | some existing => do
      require (registrationIdentityMatches existing record)
        (.contractAlreadyExists record.contractId)
      let plan := { plan with
        existingRecords := plan.existingRecords ++
          [(record.contractId, normalizeReadyAnchor existing chain.tip)] }
      return plan.modifyGroup record.creationPosition fun group =>
        { group with
          existingContractIds := group.existingContractIds ++ [record.contractId] }
  | none => do
      let plan ← record.outpoints.foldlM (claimOutpoint chain.contractTables record.contractId) plan
      let progress ← initialProgress chain.tip record
      let plan := { plan with
        newProgress := plan.newProgress ++ [(record.contractId, progress)] }
      return plan.modifyGroup record.creationPosition fun group =>
        { group with
          newContractIds := group.newContractIds ++ [record.contractId] }

def RegistrationPlan.preflight (hashing : Hashing) (chain : ChainTables)
    (plan : RegistrationPlan) (registration : Registration) :
    Except StoreError RegistrationPlan := do
  let (record, evidence) := registration
  match record.syncState with
  | .ready _ =>
    -- Unreachable: the records of a batch have been checked before.
    .error (.invalidContract "late registration must begin in CatchingUp state")
  | .catchingUp syncedThrough => do
      require (record.creationPosition.blockHeight ≤ chain.tip.height)
        (.invalidContract "contract creation is above the indexed tip")
      require (evidence.anchor = syncedThrough ∧
          syncedThrough.height = record.creationPosition.blockHeight ∧
          chain.canonicalAnchor syncedThrough.height = some syncedThrough)
        (.invalidContract "contract creation anchor is not canonical in the indexed chain")
      let (plan, group) ← plan.group hashing chain record evidence
      validateRegistrationEvidence record group.txid group.outputCount
      (plan.claimHint evidence.associatedHint).enter chain record

/-! ## Writing a batch -/

def verifyRegistrationOutputRefs (chain : ChainTables)
    (group : RegistrationTransactionGroup) : Except StoreError Unit :=
  group.allOutpoints.forM fun outpoint => do
    let reference ← okOr chain.outputs[outpoint]? (.missingOutput outpoint)
    require (reference.position = group.position ∧ reference.outpoint = outpoint)
      (.registrationTransactionConflict group.position)

/-- Merge the creation transaction of a group.  The flag says whether its
rows are new. -/
def ChainTables.mergeRegistrationTransactionGroup (chain : ChainTables)
    (group : RegistrationTransactionGroup) : Except StoreError (ChainTables × Bool) :=
  match chain.transactions[group.position]? with
  | some stored => do
      require (stored.position = group.position ∧
          stored.blockHash = group.anchor.hash ∧ stored.txid = group.txid ∧
          stored.rawTx = group.transaction) (.registrationTransactionConflict group.position)
      verifyRegistrationOutputRefs chain group
      require (∀ contractId ∈ group.existingContractIds, contractId ∈ stored.affectedContractIds)
        (.registrationTransactionConflict group.position)
      if group.newContractIds = [] then return (chain, false)
      else
        return ({ chain with
          transactions := chain.transactions.insert group.position
            { stored with
              affectedContractIds := sortDedupContracts
                (stored.affectedContractIds ++ group.newContractIds) } },
          false)
  | none => do
      require (group.existingContractIds = []) (.missingRegistrationTransaction group.position)
      require (∀ outpoint ∈ group.allOutpoints, chain.outputs[outpoint]? = none)
        (.registrationTransactionConflict group.position)
      return ({ chain with
        transactions := chain.transactions.insert group.position {
          position := group.position
          blockHash := group.anchor.hash
          txid := group.txid
          rawTx := group.transaction
          affectedContractIds := sortDedupContracts group.newContractIds }
        outputs := chain.outputs.insertAll
          (group.allOutpoints.map fun outpoint => (outpoint, ⟨group.position, outpoint⟩)) }, true)

def modifyUndo (undoBlocks : Table ℕ UndoBlock) (height : ℕ)
    (change : UndoBlock → UndoBlock) : Table ℕ UndoBlock :=
  match undoBlocks[height]? with
  | some undo => undoBlocks.insert height (change undo)
  | none => undoBlocks

theorem row_modifyUndo (undoBlocks : Table ℕ UndoBlock) (height a : ℕ)
    (change : UndoBlock → UndoBlock) : (modifyUndo undoBlocks height change)[a]? =
      if height = a then (undoBlocks[a]?).map change else undoBlocks[a]? := by
  unfold modifyUndo
  by_cases ha : height = a
  · subst ha
    cases hrow : undoBlocks[height]? <;> simp [hrow]
  · cases undoBlocks[height]? <;> simp [ha]

def Store.mergeGroup (store : Store) (group : RegistrationTransactionGroup) :
    Except StoreError (Store × Bool) := do
  let (chain, inserted) ← store.chain.mergeRegistrationTransactionGroup group
  return ({ store with chain }, inserted)

def Store.journalGroup (store : Store) (group : RegistrationTransactionGroup) : Store :=
  { store with
    undoBlocks := modifyUndo store.undoBlocks group.position.blockHeight
      fun undo => { undo with
        transactionPositions := undo.transactionPositions ++ [group.position]
        outputOutpoints := undo.outputOutpoints ++ group.allOutpoints } }

def Store.mergeGroups (store : Store) (groups : List RegistrationTransactionGroup) :
    Except StoreError (Store × List RegistrationTransactionGroup) :=
  groups.foldlM (fun acc group => do
    let (store, inserted) ← acc.1.mergeGroup group
    return (store, if inserted then acc.2 ++ [group] else acc.2)) (store, [])

def Store.insertRegistration (hashing : Hashing) (plan : RegistrationPlan)
    (store : Store) (registration : Registration) : Except StoreError Store :=
  let record := registration.1
  match plan.newProgress.lookup record.contractId with
  | none => .ok store
  | some progress => do
      let contractTables ← store.chain.contractTables.insertContract hashing record
      let journal ← store.journal.appendEvent (.contractRegistered record.contractId)
      return { store with
        chain := { store.chain with
          contractTables
          backfillProgress := store.chain.backfillProgress.insert record.contractId progress }
        undoBlocks := modifyUndo store.undoBlocks
          record.creationPosition.blockHeight fun undo => { undo with
            contractChanges := undo.contractChanges ++ [⟨record.contractId, none⟩]
            backfillProgressChanges := undo.backfillProgressChanges ++ [⟨record.contractId, none⟩] }
        journal }

def associateRegistrationHint (hints : Table RecoveryHintLocation
    StoredRecoveryHint) (registration : Registration) :
    Table RecoveryHintLocation StoredRecoveryHint :=
  let (record, evidence) := registration
  match evidence.associatedHint with
  | none => hints
  | some location =>
    if location.position = record.creationPosition ∧
        location.outputIndex < evidence.transaction.output.length then
      match hints[location]? with
      | none => hints
      | some hint =>
        if hint.location = location ∧ hint.creationTxid = record.contractId.txid ∧
            hint.family = .binaryMarketV1 ∧ hint.associatedContract = none then
          hints.insert location { hint with associatedContract := some record.contractId }
        else hints
    else hints

def Store.associateHint (plan : RegistrationPlan) (store : Store)
    (registration : Registration) : Store :=
  if (plan.newProgress.lookup registration.1.contractId).isSome ∧
      (∀ location, registration.2.associatedHint = some location →
        location ∉ plan.ambiguousHintLocations) then
    { store with
      chain := { store.chain with
        recoveryHints := associateRegistrationHint store.chain.recoveryHints registration } }
  else store

def registrationResult (plan : RegistrationPlan)
    (registration : Registration) : ContractRegistrationResult :=
  match plan.existingRecords.lookup registration.1.contractId with
  | some record => ⟨record, false⟩
  | none => ⟨registration.1, true⟩

def Store.retainDeclarations (store : Store) (registrations : List Registration) : Store :=
  let rows : List (ContractId × ContractDeclaration) :=
    registrations.map fun registration =>
      (registration.1.contractId, declarationFromRecord registration.1)
  { store with
    retainedDeclarations := store.retainedDeclarations.insertAll rows }

def Store.writeRegistrations (hashing : Hashing) (plan : RegistrationPlan)
    (store : Store) (registrations : List Registration) : Except StoreError Store := do
  let (store, inserted) ←
    (store.retainDeclarations registrations).mergeGroups plan.transactionGroups
  let store ← registrations.foldlM (insertRegistration hashing plan) store
  let store := inserted.foldl journalGroup store
  return registrations.foldl (associateHint plan) store

def Store.registerContracts (hashing : Hashing) (store : Store)
    (registrations : List Registration) :
    Except StoreError (List ContractRegistrationResult × Store) := do
  require (registrations ≠ []) (.invalidRegistrationEvidence "registration batch has no contracts")
  let _ ← registrations.foldlM (validateRegistrationRecord hashing) []
  require (store.syncStatus ≠ .rescanRequired) .rebuildRequired
  require (∀ registration ∈ registrations, store.activationAnchor.height <
        registration.1.creationPosition.blockHeight) (.preActivationContract store.activationAnchor)
  registrations.forM fun registration =>
    match store.retainedDeclarations[registration.1.contractId]? with
    | some existing =>
      require (existing = declarationFromRecord registration.1)
        (.invalidRegistrationEvidence "retained declaration conflicts")
    | none => .ok ()
  let plan ← registrations.foldlM (RegistrationPlan.preflight hashing store.chain) {}
  let next ← store.writeRegistrations hashing plan registrations
  return (registrations.map (registrationResult plan), next)

/-! ## What an accepted batch satisfies -/

namespace RegistrationTransactionGroup

def Listed (blocks : Table ℕ StoredBlock) (group : RegistrationTransactionGroup) : Prop :=
  ∃ block, blocks[group.position.blockHeight]? = some block ∧
    block.anchor = group.anchor ∧ block.orderedTxids[group.position.txIndex]? = some group.txid

def Produced (group : RegistrationTransactionGroup) (record : ContractRecord) : Prop :=
  group.position = record.creationPosition ∧
    ∀ tracked ∈ record.outpoints, tracked.outpoint.txid = group.txid ∧
      tracked.outpoint.vout < group.outputCount

def core (group : RegistrationTransactionGroup) : RegistrationTransactionGroup :=
  { group with existingContractIds := [], newContractIds := [] }

end RegistrationTransactionGroup

/-- A cursor which stands at the creation of a record and is pinned to a tip. -/
structure BackfillProgress.Starts (tip : ChainAnchor) (record : ContractRecord)
    (progress : BackfillProgress) : Prop where
  contractId : progress.contractId = record.contractId
  at_creation : progress.nextPosition.blockHeight = record.creationPosition.blockHeight
  pinned : progress.pinnedTip = tip

namespace RegistrationPlan

variable {hashing : Hashing} {chain : ChainTables} {plan next : RegistrationPlan}
  {record : ContractRecord}

def cores (plan : RegistrationPlan) : List RegistrationTransactionGroup :=
  plan.transactionGroups.map RegistrationTransactionGroup.core

theorem cores_modifyGroup (plan : RegistrationPlan) (position : ChainPosition)
    {change : RegistrationTransactionGroup → RegistrationTransactionGroup}
    (hcore : ∀ group, (change group).core = group.core) :
    (plan.modifyGroup position change).cores = plan.cores := by
  simp only [cores, modifyGroup, List.map_map]
  apply List.map_congr_left
  intro group _
  simp only [Function.comp_apply]
  split
  · exact hcore group
  · rfl

theorem claimHint_cores (plan : RegistrationPlan) (hint : Option RecoveryHintLocation) :
    (plan.claimHint hint).cores = plan.cores ∧
      (plan.claimHint hint).newProgress = plan.newProgress := by
  unfold claimHint
  split
  · exact ⟨rfl, rfl⟩
  · split <;> exact ⟨rfl, rfl⟩

theorem claimOutpoint_cores {tables : ContractTables} {contractId : ContractId}
    {tracked : TrackedOutpoint} (hclaim : plan.claimOutpoint tables contractId tracked = .ok next) :
    (next.cores, next.newProgress) = (plan.cores, plan.newProgress) := by
  unfold claimOutpoint at hclaim
  split at hclaim
  · cases hclaim
  · split at hclaim
    · cases hclaim
    · cases hclaim
      rfl

theorem enter_cores (henter : plan.enter chain record = .ok next) :
    next.cores = plan.cores ∧ (next.newProgress = plan.newProgress ∨ ∃ progress,
        next.newProgress = plan.newProgress ++ [(record.contractId, progress)] ∧
        progress.Starts chain.tip record) := by
  unfold enter at henter
  split at henter
  · simp only [bind_eq_ok, require_eq_ok, pure_eq_ok] at henter
    obtain ⟨-, -, rfl⟩ := henter
    exact ⟨cores_modifyGroup _ _ fun _ => rfl, .inl rfl⟩
  · simp only [bind_eq_ok, initialProgress, okOr_eq_ok, pure_eq_ok] at henter
    obtain ⟨claimed, hclaimed, _, ⟨txIndex, -, rfl⟩, rfl⟩ := henter
    have hkept := foldlM_unchanged (fun p : RegistrationPlan => (p.cores, p.newProgress))
      (fun _ _ _ hstep => claimOutpoint_cores hstep) _ hclaimed
    rw [Prod.mk.injEq] at hkept
    constructor
    · rw [cores_modifyGroup]
      · exact hkept.1
      · intro group
        rfl
    · rw [← hkept.2]
      exact .inr ⟨_, rfl, rfl, rfl, rfl⟩

/-- The groups stand in indexed blocks, new cursors stand at the creations of
records seen so far, and these were produced by their groups. -/
structure Sound (chain : ChainTables) (seen : List ContractRecord)
    (plan : RegistrationPlan) : Prop where
  listed : ∀ group ∈ plan.cores, group.Listed chain.blocks
  progress : ∀ row ∈ plan.newProgress, ∃ record ∈ seen,
    record.contractId = row.1 ∧ row.2.Starts chain.tip record
  produced : ∀ record ∈ seen, ∃ group ∈ plan.cores, group.Produced record

theorem group_ok {evidence : RegistrationEvidence} {group : RegistrationTransactionGroup}
    (hanchor : evidence.anchor.height = record.creationPosition.blockHeight)
    (hblock : (chain.blocks[evidence.anchor.height]?).isSome)
    (hgroup : plan.group hashing chain record evidence = .ok (next, group)) :
    next.newProgress = plan.newProgress ∧
      group.position = record.creationPosition ∧ group.core ∈ next.cores ∧
      ∀ other ∈ next.cores, other ∈ plan.cores ∨ other.Listed chain.blocks := by
  unfold RegistrationPlan.group at hgroup
  split at hgroup
  · next found hfind =>
    simp only [bind_eq_ok, require_eq_ok, pure_eq_ok, Prod.mk.injEq] at hgroup
    obtain ⟨-, -, rfl, rfl⟩ := hgroup
    refine ⟨rfl, ?_, List.mem_map_of_mem (List.mem_of_find?_eq_some hfind),
      fun other hother => .inl hother⟩
    simpa using List.find?_some hfind
  · simp only [bind_eq_ok, require_eq_ok, pure_eq_ok, Prod.mk.injEq] at hgroup
    obtain ⟨-, -, -, -, _, hposition, rfl, rfl⟩ := hgroup
    refine ⟨rfl, rfl, ?_, ?_⟩
    · simp [cores]
    · intro other hother
      simp only [cores, List.map_append, List.map_singleton, List.mem_append,
        List.mem_singleton] at hother
      rcases hother with hold | rfl
      · exact .inl hold
      · obtain ⟨block, hblock⟩ := Option.isSome_iff_exists.mp hblock
        simp only [validateRegistrationTransactionPosition, hblock, require_eq_ok] at hposition
        refine .inr ⟨block, ?_, hposition⟩
        rw [← hblock, hanchor]
        rfl

theorem group_mono {evidence : RegistrationEvidence} {group other : RegistrationTransactionGroup}
    (hgroup : plan.group hashing chain record evidence = .ok (next, group))
    (hother : other ∈ plan.cores) : other ∈ next.cores := by
  unfold RegistrationPlan.group at hgroup
  split at hgroup
  all_goals
    simp only [bind_eq_ok, require_eq_ok, pure_eq_ok, Prod.mk.injEq] at hgroup
  · obtain ⟨-, -, rfl, -⟩ := hgroup
    exact hother
  · obtain ⟨-, -, -, -, -, -, rfl, -⟩ := hgroup
    simp only [cores, List.map_append, List.mem_append]
    exact .inl hother

theorem Sound.preflight {activation : ℕ} {seen : List ContractRecord} {registration : Registration}
    (hsound : plan.Sound chain seen)
    (hfilled : ∀ height, activation < height → height ≤ chain.tip.height →
      (chain.blocks[height]?).isSome)
    (habove : activation < registration.1.creationPosition.blockHeight)
    (hpreflight : plan.preflight hashing chain registration = .ok next) :
    next.Sound chain (seen ++ [registration.1]) := by
  obtain ⟨record, evidence⟩ := registration
  unfold RegistrationPlan.preflight at hpreflight
  dsimp only at hpreflight habove
  split at hpreflight
  · cases hpreflight
  · simp only [bind_eq_ok, require_eq_ok, validateRegistrationEvidence, Prod.exists] at hpreflight
    obtain ⟨-, htip, -, ⟨hanchor, hheight, -⟩, grouped, group, hgroup, -,
      ⟨-, -, -, -, -, -, houtputs⟩, henter⟩ := hpreflight
    rw [← hanchor] at hheight
    have hblock := hfilled _ habove htip
    rw [← hheight] at hblock
    obtain ⟨hprogress, hposition, hmem, hcores⟩ := group_ok hheight hblock hgroup
    obtain ⟨hhintCores, hhintProgress⟩ := claimHint_cores grouped evidence.associatedHint
    obtain ⟨henterCores, henterProgress⟩ := enter_cores henter
    rw [hhintCores] at henterCores
    rw [hhintProgress, hprogress] at henterProgress
    refine ⟨?_, ?_, ?_⟩
    · intro other hother
      rw [henterCores] at hother
      rcases hcores other hother with hold | hlisted
      · exact hsound.listed other hold
      · exact hlisted
    · intro row hrow
      have hseen : row ∈ plan.newProgress → ∃ other ∈ seen ++ [record],
          other.contractId = row.1 ∧ row.2.Starts chain.tip other := by
        intro hold
        obtain ⟨other, hother, hstarts⟩ := hsound.progress row hold
        exact ⟨other, List.mem_append_left _ hother, hstarts⟩
      rcases henterProgress with hkept | ⟨item, hnew, hstarts⟩
      · exact hseen (hkept ▸ hrow)
      · rw [hnew, List.mem_append, List.mem_singleton] at hrow
        rcases hrow with hold | rfl
        · exact hseen hold
        · exact ⟨record, List.mem_append_right _ (List.mem_singleton_self _), rfl, hstarts⟩
    · intro other hother
      rw [henterCores]
      rcases List.mem_append.mp hother with hold | hnew
      · obtain ⟨found, hfound, hproduced⟩ := hsound.produced other hold
        exact ⟨found, group_mono hgroup hfound, hproduced⟩
      · rw [List.mem_singleton] at hnew
        subst hnew
        exact ⟨group.core, hmem, hposition, houtputs⟩

theorem Sound.preflights {activation : ℕ} {registrations : List Registration}
    (hfilled : ∀ height, activation < height → height ≤ chain.tip.height →
      (chain.blocks[height]?).isSome)
    (habove : ∀ registration ∈ registrations,
      activation < registration.1.creationPosition.blockHeight)
    {seen : List ContractRecord} (hsound : plan.Sound chain seen)
    (hpreflight : registrations.foldlM (RegistrationPlan.preflight hashing chain) plan = .ok next) :
    next.Sound chain (seen ++ registrations.map Prod.fst) := by
  induction registrations generalizing plan seen with
  | nil =>
    simp only [List.foldlM_nil, pure_eq_ok] at hpreflight
    simpa [← hpreflight] using hsound
  | cons registration rest ih =>
    simp only [List.foldlM_cons, bind_eq_ok] at hpreflight
    obtain ⟨mid, hmid, hrest⟩ := hpreflight
    have hstep := hsound.preflight hfilled (habove registration List.mem_cons_self) hmid
    have hrun := ih (fun other hother => habove other (List.mem_cons_of_mem _ hother)) hstep hrest
    simpa using hrun

end RegistrationPlan

theorem validateRegistrationRecords_nodup {hashing : Hashing}
    {registrations : List Registration} {seen seen' : List ContractId}
    (hvalidate : registrations.foldlM (validateRegistrationRecord hashing)
      seen = .ok seen') (hseen : seen.Nodup) :
    seen'.Nodup ∧ seen' = (registrations.map fun registration =>
        registration.1.contractId).reverse ++ seen := by
  induction registrations generalizing seen with
  | nil =>
    simp only [List.foldlM_nil, pure_eq_ok] at hvalidate
    subst hvalidate
    exact ⟨hseen, rfl⟩
  | cons registration rest ih =>
    simp only [List.foldlM_cons, validateRegistrationRecord, bind_eq_ok,
      require_eq_ok, pure_eq_ok] at hvalidate
    obtain ⟨_, ⟨-, -, -, hnew, -, -, rfl⟩, hrest⟩ := hvalidate
    obtain ⟨hnodup, heq⟩ := ih hrest (List.nodup_cons.mpr ⟨hnew, hseen⟩)
    refine ⟨hnodup, ?_⟩
    rw [heq]
    simp

end DeadcatNode
