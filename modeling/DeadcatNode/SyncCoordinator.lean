import DeadcatNode.ChainInterpretation
import DeadcatNode.NodeStoreOperations
import DeadcatNode.SharedPrograms

/-!
# The sync coordinator

The coordinator reconciles the indexed branch with the chain source, replays
blocks for contracts which were registered late, and indexes the blocks up to a
pinned source tip.  The source may change its branch between any two calls, and
registrations are committed while the coordinator runs, so its code is a
program on the shared store.  The loops of the code are stages: one round of a
loop is one stage.
-/

namespace DeadcatNode

open Checked

/-! ## What the coordinator uses -/

/-- The calls of the chain source, and the random epoch which is drawn when the
store is marked for a rebuild. -/
inductive OutsideQuery where
  | tip
  | blockHash (height : ℕ)
  | block (hash : BlockHash)
  | epoch

abbrev OutsideQuery.Answer : OutsideQuery → Type
  | .tip => ChainAnchor
  | .blockHash _ => BlockHash
  | .block _ => Block
  | .epoch => ℕ

abbrev StoreOperation.Report : StoreOperation → Type
  | .applyBlock _ => ApplyBlockResult
  | .registerContracts _ => List ContractRegistrationResult
  | .applyBackfillBlock _ _ => ApplyBackfillResult
  | .rollbackTo _ _ => RollbackResult
  | .setSyncStatus _ _ => EventCursor
  | .invalidateForRebuild _ => ℕ
  | .resetForRebuild => EventCursor

def Store.commit (hashing : Hashing) (store : Store) :
    (operation : StoreOperation) → Except StoreError (operation.Report × Store)
  | .applyBlock delta => store.applyBlock hashing delta
  | .registerContracts registrations =>
    store.registerContracts hashing registrations
  | .applyBackfillBlock contractIds delta =>
    store.applyBackfillBlock hashing contractIds delta
  | .rollbackTo ancestor epoch => store.rollbackTo hashing ancestor epoch
  | .setSyncStatus status epoch => store.setSyncStatus status epoch
  | .invalidateForRebuild epoch => store.invalidateForRebuild epoch
  | .resetForRebuild => store.resetForRebuild

theorem Store.perform_eq_commit (hashing : Hashing) (store : Store) (operation : StoreOperation) :
    store.perform hashing operation = Prod.snd <$> store.commit hashing operation := by
  cases operation <;> rfl

/-- Header hashes, and the hash of two neighbours in a merkle tree. -/
structure BlockHashing where
  blockHash : BlockHeader → BlockHash
  merkleNode : Txid → Txid → Txid

structure SyncCoordinator (ε : Type) where
  hashing : Hashing
  blockHashing : BlockHashing
  interpreter : ChainInterpreter ε
  maxBranchRestarts : ℕ := 8

structure SyncReport where
  startingTip : ChainAnchor
  indexedTip : ChainAnchor
  blocksApplied : ℕ := 0
  blocksRolledBack : ℕ := 0
  backfillBlocksApplied : ℕ := 0
  branchRestarts : ℕ := 0
deriving DecidableEq

inductive SyncOutcome where
  | ready (report : SyncReport)
  | rescanRequired (indexedTip sourceTip : ChainAnchor)
deriving DecidableEq

inductive FetchResult where
  | block (fetched : FetchedBlock)
  | branchChanged

inductive Reconcile where
  | stable
  | rolledBack (depth : ℕ)
  | restart
  | rescanRequired

/-! ## Complete blocks -/

namespace BlockHashing

variable (blockHashing : BlockHashing)

def merkleLayer : List Txid → List Txid
  | left :: right :: rest =>
    blockHashing.merkleNode left right :: merkleLayer rest
  | [left] => [blockHashing.merkleNode left left]
  | [] => []

/-- Reduce a layer while it has more than one node.  Every round shortens it,
so its length bounds the number of rounds. -/
def reduceLayer : ℕ → List Txid → List Txid
  | 0, layer => layer
  | rounds + 1, layer =>
    if 1 < layer.length then
      reduceLayer rounds (blockHashing.merkleLayer layer)
    else layer

theorem length_merkleLayer (layer : List Txid) :
    (blockHashing.merkleLayer layer).length = (layer.length + 1) / 2 := by
  induction layer using merkleLayer.induct with
  | case1 left right rest ih =>
    simp only [merkleLayer, List.length_cons, ih]
    omega
  | case2 | case3 => simp [merkleLayer]

def transactionMerkleRoot (hashing : Hashing) (transactions : List Transaction) : Option Txid :=
  (blockHashing.reduceLayer transactions.length (transactions.map hashing.txid)).head?

def validateCompleteBlock (hashing : Hashing) (block : Block)
    (expectedHeight : ℕ) (expectedHash : BlockHash)
    (expectedPrev : Option BlockHash) : Except String Unit := do
  require (blockHashing.blockHash block.header = expectedHash)
    "returned block hash differs from the requested canonical hash"
  require (block.header.height = expectedHeight) "returned block header height is inconsistent"
  require (∀ prev ∈ expectedPrev, block.header.prevBlockhash = prev)
    "returned block does not extend the expected predecessor"
  require (block.txdata ≠ []) "canonical block has no transactions"
  require (block.txdata.map hashing.txid).Nodup "canonical block contains duplicate transaction IDs"
  require (blockHashing.transactionMerkleRoot hashing block.txdata = some block.header.merkleRoot)
    "canonical block transaction list does not match its merkle root"

end BlockHashing

/-! ## The code of the coordinator -/

namespace SyncCoordinator

variable {ε : Type} (coordinator : SyncCoordinator ε)

def interface : Shared.Interface where
  Query := OutsideQuery
  Answer := OutsideQuery.Answer
  State := Store
  Operation := StoreOperation
  Report := StoreOperation.Report
  Failure := SyncError ε
  perform store operation := (store.commit coordinator.hashing operation).mapError .store

abbrev Code : Type → Type := Shared.Program coordinator.interface

def sourceTip : coordinator.Code ChainAnchor :=
  .ask OutsideQuery.tip .done

def sourceHash (height : ℕ) : coordinator.Code BlockHash :=
  .ask (OutsideQuery.blockHash height) .done

def sourceBlock (hash : BlockHash) : coordinator.Code Block :=
  .ask (OutsideQuery.block hash) .done

def freshEpoch : coordinator.Code ℕ := .ask OutsideQuery.epoch .done

def read {α : Type} (f : Store → α) : coordinator.Code α :=
  .read fun store => .done (f store)

def tryRead {α : Type} (f : Store → Except (SyncError ε) α) : coordinator.Code α :=
  .read fun store => .ofExcept (f store)

def commit (operation : StoreOperation) : coordinator.Code operation.Report :=
  .commit operation .done

def fail {α : Type} (error : SyncError ε) : coordinator.Code α := .fail error

def canonicalAnchor (height : ℕ) : coordinator.Code ChainAnchor :=
  coordinator.tryRead fun store =>
    okOr (store.chain.canonicalAnchor height) (.missingCheckpoint height)

def pinStillCanonical (pinnedTip : ChainAnchor) : coordinator.Code Bool := do
  let currentTip ← coordinator.sourceTip
  if currentTip.height < pinnedTip.height then return false
  else
    let hash ← coordinator.sourceHash pinnedTip.height
    return hash = pinnedTip.hash

def blockStillPinned (block pinnedTip : ChainAnchor) : coordinator.Code Bool := do
  let hash ← coordinator.sourceHash block.height
  if hash = block.hash then coordinator.pinStillCanonical pinnedTip
  else return false

/-- Check a block of the source and that the branch has not changed since. -/
def acceptBlock (anchor pinnedTip : ChainAnchor) (expectedPrev : Option BlockHash) (block : Block) :
    coordinator.Code FetchResult :=
  match coordinator.blockHashing.validateCompleteBlock coordinator.hashing block
    anchor.height anchor.hash expectedPrev with
  | .error reason => coordinator.fail (.invalidBlock anchor.height reason)
  | .ok _ => do
      let pinned ← coordinator.blockStillPinned anchor pinnedTip
      return if pinned then .block ⟨anchor, block⟩ else .branchChanged

def fetchBlock (height : ℕ) (pinnedTip : ChainAnchor)
    (expectedPrev : BlockHash) : coordinator.Code FetchResult := do
  let hash ← coordinator.sourceHash height
  let block ← coordinator.sourceBlock hash
  coordinator.acceptBlock ⟨height, hash⟩ pinnedTip (some expectedPrev) block

def fetchCanonicalBackfillBlock (anchor indexedTip : ChainAnchor)
    (expectedPrev : Option BlockHash) : coordinator.Code FetchResult := do
  let hash ← coordinator.sourceHash anchor.height
  if hash ≠ anchor.hash then return .branchChanged
  else
    let block ← coordinator.sourceBlock anchor.hash
    coordinator.acceptBlock anchor indexedTip expectedPrev block

/-- The newest block below the tip which the source shares. -/
def findCommon (indexedTip pinnedTip : ChainAnchor) :
    List ℕ → coordinator.Code (Option (ChainAnchor × ℕ))
  | [] => return none
  | depth :: depths =>
    if indexedTip.height < depth then return none
    else if pinnedTip.height < indexedTip.height - depth then
      findCommon indexedTip pinnedTip depths
    else do
      let height := indexedTip.height - depth
      let indexed ← coordinator.canonicalAnchor height
      let hash ← coordinator.sourceHash height
      if hash = indexed.hash then return some (indexed, depth)
      else findCommon indexedTip pinnedTip depths

/-- Go back to the common ancestor, or give the branch up. -/
def leaveBranch (common : Option (ChainAnchor × ℕ)) : coordinator.Code Reconcile :=
  match common with
  | none => do
      let epoch ← coordinator.freshEpoch
      let _ ← coordinator.commit (.invalidateForRebuild epoch)
      return .rescanRequired
  | some (ancestor, depth) => do
      let epoch ← coordinator.freshEpoch
      let result ← coordinator.commit (.rollbackTo ancestor epoch)
      return match result with
      | .rolledBack _ _ _ _ | .noop _ => .rolledBack depth
      | .rebuildRequired _ _ _ => .rescanRequired

def isStable (indexedTip pinnedTip : ChainAnchor) : coordinator.Code Bool :=
  if indexedTip.height ≤ pinnedTip.height then do
    let hash ← coordinator.sourceHash indexedTip.height
    return hash = indexedTip.hash
  else return false

def reconcile (pinnedTip : ChainAnchor) : coordinator.Code Reconcile := do
  let indexedTip ← coordinator.read fun store => store.chain.tip
  let stable ← coordinator.isStable indexedTip pinnedTip
  if stable then return .stable
  else
    let common ← coordinator.findCommon indexedTip pinnedTip
      ((List.range undoRetentionBlocks).map (· + 1))
    let pinned ← coordinator.pinStillCanonical pinnedTip
    if pinned then coordinator.leaveBranch common else return .restart

/-! ## Stages -/

inductive Stage where
  | rebuildToTip
  | syncToTip
  /-- The head of the restart loop. -/
  | restart (report : SyncReport)
  /-- One round of the backfill loop. -/
  | backfillPending (report : SyncReport) (pinnedTip : ChainAnchor)
  /-- All late contracts have been replayed. -/
  | canonical (report : SyncReport) (pinnedTip : ChainAnchor)
  /-- One round of the loop over the new heights. -/
  | apply (report : SyncReport) (pinnedTip : ChainAnchor) (height : ℕ)
  | finish (report : SyncReport) (pinnedTip : ChainAnchor)
  | returned (outcome : SyncOutcome)
deriving DecidableEq

def count (counter amount : ℕ) : coordinator.Code ℕ :=
  .ofExcept (okOr (checkedAdd 32 counter amount) .counterOverflow)

def noteRestart (report : SyncReport) : coordinator.Code Stage := do
  let branchRestarts ← coordinator.count report.branchRestarts 1
  if coordinator.maxBranchRestarts < branchRestarts then
    coordinator.fail (.tooManyBranchChanges coordinator.maxBranchRestarts)
  else return .restart { report with branchRestarts }

def rebuildToTip : coordinator.Code Stage := do
  let activation ← coordinator.read fun store => store.activationAnchor
  let sourceTip ← coordinator.sourceTip
  if sourceTip.height < activation.height then
    coordinator.fail (.activationAboveSourceTip activation sourceTip)
  else
    let sourceHash ← coordinator.sourceHash activation.height
    if sourceHash ≠ activation.hash then
      coordinator.fail (.activationHashMismatch activation sourceHash)
    else
      let status ← coordinator.read fun store => store.syncStatus
      match status with
      | .rescanRequired => do
          let _ ← coordinator.commit .resetForRebuild
          return .syncToTip
      | .syncing | .backendUnavailable => do
          let indexedActivation ← coordinator.read fun store =>
            store.chain.canonicalAnchor activation.height
          if indexedActivation ≠ some activation then
            coordinator.fail (.indexedActivationMismatch activation indexedActivation)
          else return .syncToTip
      | status => coordinator.fail (.rebuildNotRequired status)

def syncToTip : coordinator.Code Stage := do
  let startingTip ← coordinator.read fun store => store.chain.tip
  let initialStatus ← coordinator.read fun store => store.syncStatus
  if initialStatus = .rescanRequired then
    let sourceTip ← coordinator.sourceTip
    return .returned (.rescanRequired startingTip sourceTip)
  else if initialStatus = .starting ∨ initialStatus = .backendUnavailable then
    let _ ← coordinator.commit (.setSyncStatus .syncing 0)
    return .restart { startingTip, indexedTip := startingTip }
  else return .restart { startingTip, indexedTip := startingTip }

def restart (report : SyncReport) : coordinator.Code Stage := do
  let pinnedTip ← coordinator.sourceTip
  let reconciled ← coordinator.reconcile pinnedTip
  match reconciled with
  | .stable => return .backfillPending report pinnedTip
  | .rolledBack depth => do
      let blocksRolledBack ← coordinator.count report.blocksRolledBack depth
      return .restart { report with blocksRolledBack }
  | .restart => coordinator.noteRestart report
  | .rescanRequired => do
      let indexedTip ← coordinator.read fun store => store.chain.tip
      return .returned (.rescanRequired indexedTip pinnedTip)

def expectedPrev (height : ℕ) : coordinator.Code (Option BlockHash) :=
  if height = 0 then return none
  else do
    let below ← coordinator.canonicalAnchor (height - 1)
    return some below.hash

def countReplayed (report : SyncReport) (result : ApplyBackfillResult) : coordinator.Code ℕ :=
  if result.applied then coordinator.count report.backfillBlocksApplied 1
  else return report.backfillBlocksApplied

/-- Replay the block at a height for the contracts whose cursor stands at it. -/
def backfillAt (report : SyncReport) (pinnedTip indexedTip : ChainAnchor)
    (height : ℕ) (batch : List BackfillProgress) : coordinator.Code Stage := do
  let anchor ← coordinator.canonicalAnchor height
  let expectedPrev ← coordinator.expectedPrev height
  let fetched ← coordinator.fetchCanonicalBackfillBlock anchor indexedTip expectedPrev
  match fetched with
  | .branchChanged => coordinator.noteRestart report
  | .block fetched => do
      let delta ← coordinator.tryRead fun store =>
        interpretBackfillBlock coordinator.hashing coordinator.interpreter store fetched batch
      let pinned ← coordinator.blockStillPinned anchor indexedTip
      if pinned then do
        let result ← coordinator.commit (.applyBackfillBlock
          (batch.map BackfillProgress.contractId) delta)
        let backfillBlocksApplied ← coordinator.countReplayed report result
        return .backfillPending { report with backfillBlocksApplied } pinnedTip
      else coordinator.noteRestart report

def backfillPending (report : SyncReport) (pinnedTip : ChainAnchor) : coordinator.Code Stage := do
  let pending ← coordinator.tryRead fun store => store.pendingBackfills.mapError .store
  match pending with
  | [] => return .canonical report pinnedTip
  | first :: _ => do
      let _ ← coordinator.commit (.setSyncStatus .syncing 0)
      let indexedTip ← coordinator.read fun store => store.chain.tip
      if indexedTip.height < first.nextPosition.blockHeight then
        return .canonical report pinnedTip
      else
        coordinator.backfillAt report pinnedTip indexedTip
          first.nextPosition.blockHeight (pending.filter fun item =>
            item.nextPosition.blockHeight = first.nextPosition.blockHeight)

def canonical (report : SyncReport) (pinnedTip : ChainAnchor) : coordinator.Code Stage := do
  let indexedTip ← coordinator.read fun store => store.chain.tip
  if pinnedTip.height < indexedTip.height then return .restart report
  else if indexedTip.height < pinnedTip.height then
    let _ ← coordinator.commit (.setSyncStatus .syncing 0)
    return .apply report pinnedTip (indexedTip.height + 1)
  else return .apply report pinnedTip (indexedTip.height + 1)

def apply (report : SyncReport) (pinnedTip : ChainAnchor) (height : ℕ) : coordinator.Code Stage :=
  if pinnedTip.height < height then return .finish report pinnedTip
  else do
    let currentTip ← coordinator.read fun store => store.chain.tip
    let fetched ← coordinator.fetchBlock height pinnedTip currentTip.hash
    match fetched with
    | .branchChanged => coordinator.noteRestart report
    | .block fetched => do
        let delta ← coordinator.tryRead fun store =>
          interpretCanonicalBlock coordinator.hashing coordinator.interpreter store fetched
        let pinned ← coordinator.blockStillPinned delta.anchor pinnedTip
        if pinned then do
          let _ ← coordinator.commit (.applyBlock delta)
          let blocksApplied ← coordinator.count report.blocksApplied 1
          return .apply { report with blocksApplied } pinnedTip (height + 1)
        else coordinator.noteRestart report

def reachedPin (finalTip pinnedTip : ChainAnchor) : coordinator.Code Bool :=
  if finalTip = pinnedTip then coordinator.pinStillCanonical pinnedTip
  else return false

def finish (report : SyncReport) (pinnedTip : ChainAnchor) : coordinator.Code Stage := do
  let finalTip ← coordinator.read fun store => store.chain.tip
  let reached ← coordinator.reachedPin finalTip pinnedTip
  if reached then do
    let pending ← coordinator.tryRead fun store => store.pendingBackfills.mapError .store
    if pending ≠ [] then return .restart report
    else
      let _ ← coordinator.commit (.setSyncStatus .ready 0)
      return .returned (.ready { report with indexedTip := finalTip })
  else coordinator.noteRestart report

def code : Stage → coordinator.Code Stage
  | .rebuildToTip => coordinator.rebuildToTip
  | .syncToTip => coordinator.syncToTip
  | .restart report => coordinator.restart report
  | .backfillPending report pinnedTip =>
    coordinator.backfillPending report pinnedTip
  | .canonical report pinnedTip => coordinator.canonical report pinnedTip
  | .apply report pinnedTip height => coordinator.apply report pinnedTip height
  | .finish report pinnedTip => coordinator.finish report pinnedTip
  | .returned outcome => return .returned outcome

/-- The coordinator, called again and again. -/
def machine : Shared.Machine coordinator.interface where
  Stage := Stage
  code := coordinator.code
  Entry stage := stage = .syncToTip ∨ stage = .rebuildToTip

end SyncCoordinator

end DeadcatNode
