import DeadcatNode.NodeStoreBackfill

/-!
# Interpretation of blocks

The coordinator turns a complete block into a block delta by interpreting its
transactions one after the other; what was found earlier in the block is passed
on to the next transaction.  Interpreting a single transaction is a parameter
here: a function of the store, the block and the transaction.
-/

namespace DeadcatNode

open Checked

/-- The header fields the coordinator reads.  The others are kept as bytes, so
that a header hash can depend on them. -/
structure BlockHeader where
  height : ℕ
  prevBlockhash : BlockHash
  merkleRoot : ℕ
  rest : Bytes := []
deriving DecidableEq

structure Block where
  header : BlockHeader
  txdata : List Transaction
deriving DecidableEq

structure FetchedBlock where
  anchor : ChainAnchor
  block : Block
deriving DecidableEq

inductive InterpretationMode where
  | canonical
  | backfill (contractIds : List ContractId)
deriving DecidableEq

structure InterpretationContext where
  store : Store
  anchor : ChainAnchor
  position : ChainPosition
  priorTransactions : List ChainTxDelta
  retainedDeclarations : List ContractDeclaration
  mode : InterpretationMode

structure InterpretedRecoveryHint where
  outputIndex : ℕ
  family : RecoveryFamily
  payload : Bytes
  associatedContract : Option ContractId
deriving DecidableEq

structure TransactionInterpretation where
  createdContracts : List ContractRecord := []
  stateUpdates : List StateUpdate := []
  recoveryHints : List InterpretedRecoveryHint := []
deriving DecidableEq

/-- A decoder of single transactions, with its own errors. -/
abbrev ChainInterpreter (ε : Type) : Type :=
  InterpretationContext → Transaction → Except ε TransactionInterpretation

inductive SyncError (ε : Type) where
  | chainSource
  | store (error : StoreError)
  | activationAboveSourceTip (activation sourceTip : ChainAnchor)
  | activationHashMismatch (activation : ChainAnchor) (actual : BlockHash)
  | indexedActivationMismatch (expected : ChainAnchor) (actual : Option ChainAnchor)
  | rebuildNotRequired (status : SyncStatus)
  | missingCheckpoint (height : ℕ)
  | invalidBlock (height : ℕ) (reason : String)
  | interpretation (error : ε)
  | tooManyBranchChanges (limit : ℕ)
  | transactionOverflow
  | invalidRecoveryHint (position : ChainPosition) (outputIndex : ℕ)
  | counterOverflow
deriving DecidableEq

def Store.retainedDeclarationsForTransaction (store : Store) (txid : Txid) :
    List ContractDeclaration :=
  (store.retainedDeclarations.toList.filter fun row => row.1.txid = txid).map Prod.snd

def Store.pendingBackfills (store : Store) : Except StoreError (List BackfillProgress) := do
  let catching := store.chain.contractTables.contracts.toList.filter fun row =>
    row.2.syncState.isCatchingUp
  let pending ← catching.mapM fun row =>
    okOr store.chain.backfillProgress[row.2.contractId]? (.missingBackfillProgress row.2.contractId)
  return pending.insertionSort fun item item' =>
    toLex (item.nextPosition, item.contractId) ≤ toLex (item'.nextPosition, item'.contractId)

section

variable {ε : Type} (hashing : Hashing)

def appendHint (position : ChainPosition) (transaction : Transaction)
    (acc : List ℕ × List RecoveryHintDelta) (hint : InterpretedRecoveryHint) :
    Except (SyncError ε) (List ℕ × List RecoveryHintDelta) := do
  require (hint.outputIndex < transaction.output.length ∧
    hint.outputIndex ∉ acc.1) (.invalidRecoveryHint position hint.outputIndex)
  return (hint.outputIndex :: acc.1, acc.2 ++ [{
    location := ⟨position, hint.outputIndex⟩
    creationTxid := hashing.txid transaction
    family := hint.family
    payload := hint.payload
    associatedContract := hint.associatedContract }])

structure BlockInterpretation where
  relevantTransactions : List ChainTxDelta := []
  recoveryHints : List RecoveryHintDelta := []
deriving DecidableEq

def appendInterpretation (anchor : ChainAnchor) (position : ChainPosition)
    (transaction : Transaction) (includeHints : Bool)
    (found : BlockInterpretation) (interpreted : TransactionInterpretation) :
    Except (SyncError ε) BlockInterpretation := do
  let recoveryHints ←
    if includeHints then
      Prod.snd <$> interpreted.recoveryHints.foldlM
        (appendHint hashing position transaction) ([], found.recoveryHints)
    else .ok found.recoveryHints
  if interpreted.createdContracts = [] ∧ interpreted.stateUpdates = [] then
    return { found with recoveryHints }
  else
    return {
      relevantTransactions := found.relevantTransactions ++ [{
        position
        blockHash := anchor.hash
        txid := hashing.txid transaction
        rawTx := transaction
        createdContracts := interpreted.createdContracts
        stateUpdates := interpreted.stateUpdates }]
      recoveryHints }

def blockPosition (anchor : ChainAnchor) (txIndex : ℕ) : Except (SyncError ε) ChainPosition := do
  require (txIndex < 2 ^ 32) .transactionOverflow
  return ⟨anchor.height, txIndex⟩

def interpretCanonicalTransaction (interpreter : ChainInterpreter ε)
    (store : Store) (anchor : ChainAnchor) (found : BlockInterpretation)
    (entry : Transaction × ℕ) : Except (SyncError ε) BlockInterpretation := do
  let position ← blockPosition anchor entry.2
  let interpreted ← (interpreter {
    store
    anchor
    position
    priorTransactions := found.relevantTransactions
    retainedDeclarations := store.retainedDeclarationsForTransaction (hashing.txid entry.1)
    mode := .canonical } entry.1).mapError .interpretation
  appendInterpretation hashing anchor position entry.1 true found interpreted

def interpretCanonicalBlock (interpreter : ChainInterpreter ε) (store : Store)
    (fetched : FetchedBlock) : Except (SyncError ε) BlockDelta := do
  let found ← fetched.block.txdata.zipIdx.foldlM
    (interpretCanonicalTransaction hashing interpreter store fetched.anchor) {}
  return {
    anchor := fetched.anchor
    prevBlockHash := fetched.block.header.prevBlockhash
    orderedTxids := fetched.block.txdata.map hashing.txid
    relevantTransactions := found.relevantTransactions
    recoveryHints := found.recoveryHints.insertionSort fun hint hint' =>
      hint.location ≤ hint'.location }

/-- Only the contracts whose cursor has been reached take part. -/
def interpretBackfillTransaction (interpreter : ChainInterpreter ε)
    (store : Store) (anchor : ChainAnchor) (progress : List BackfillProgress)
    (found : BlockInterpretation) (entry : Transaction × ℕ) :
    Except (SyncError ε) BlockInterpretation := do
  let position ← blockPosition anchor entry.2
  let active := (progress.filter fun item => item.nextPosition ≤ position).map
    BackfillProgress.contractId
  if active = [] then return found
  else do
    let interpreted ← (interpreter {
      store
      anchor
      position
      priorTransactions := found.relevantTransactions
      retainedDeclarations := []
      mode := .backfill active } entry.1).mapError .interpretation
    appendInterpretation hashing anchor position entry.1 false found interpreted

def interpretBackfillBlock (interpreter : ChainInterpreter ε) (store : Store)
    (fetched : FetchedBlock) (progress : List BackfillProgress) :
    Except (SyncError ε) BlockDelta := do
  let found ← fetched.block.txdata.zipIdx.foldlM
    (interpretBackfillTransaction hashing interpreter store fetched.anchor progress) {}
  return {
    anchor := fetched.anchor
    prevBlockHash := fetched.block.header.prevBlockhash
    orderedTxids := fetched.block.txdata.map hashing.txid
    relevantTransactions := found.relevantTransactions
    recoveryHints := [] }

end

end DeadcatNode
