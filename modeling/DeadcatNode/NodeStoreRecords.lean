import DeadcatNode.ElementsTransaction
import DeadcatNode.BinaryMarketEconomics

/-!
# Records of the node's store

The rows of the node's database, the block deltas which are applied to it and
the journal which undoes them.  The binary market is the only contract family,
so the one-variant wrappers around its parameters and its state are left out.
Serialization is the identity here: a row is the value it encodes, and a raw
transaction is the transaction.
-/

namespace DeadcatNode

inductive LiquidNetwork where
  | liquid
  | liquidTestnet
  | elementsRegtest
deriving DecidableEq

structure BinaryMarketParams where
  oraclePublicKey : ℕ
  collateralAssetId : AssetId
  yesTokenAssetId : AssetId
  noTokenAssetId : AssetId
  yesReissuanceTokenId : AssetId
  noReissuanceTokenId : AssetId
  basePayout : ℕ
  expiryHeight : ℕ
deriving DecidableEq

structure ContractId where
  creationAnchor : OutPoint
deriving DecidableEq

namespace ContractId

instance : LinearOrder ContractId :=
  LinearOrder.lift' creationAnchor (by
    rintro ⟨anchor⟩ ⟨anchor'⟩ heq
    simp_all)

def txid (contractId : ContractId) : Txid := contractId.creationAnchor.txid

def vout (contractId : ContractId) : ℕ := contractId.creationAnchor.vout

end ContractId

inductive ContractKind where
  | binaryMarketV1
deriving DecidableEq

inductive ContractSyncState where
  | catchingUp (syncedThrough : ChainAnchor)
  | ready (syncedThrough : ChainAnchor)
deriving DecidableEq

def ContractSyncState.isCatchingUp : ContractSyncState → Bool
  | .catchingUp _ => true
  | .ready _ => false

inductive AssetRelationKind where
  | collateral
  | yesToken
  | noToken
  | yesReissuanceToken
  | noReissuanceToken
deriving DecidableEq

def AssetRelationKind.tag : AssetRelationKind → ℕ
  | .collateral => 0
  | .yesToken => 1
  | .noToken => 2
  | .yesReissuanceToken => 3
  | .noReissuanceToken => 4

structure ScriptBinding where
  role : ℕ
  scriptPubkey : Script
deriving DecidableEq

structure AssetBinding where
  assetId : AssetId
  relation : AssetRelationKind
  role : ℕ
deriving DecidableEq

structure TrackedOutpoint where
  role : ℕ
  outpoint : OutPoint
deriving DecidableEq

structure ContractRecord where
  contractId : ContractId
  kind : ContractKind
  params : BinaryMarketParams
  creationPosition : ChainPosition
  state : BinaryMarketState
  syncState : ContractSyncState
  scripts : List ScriptBinding
  assets : List AssetBinding
  outpoints : List TrackedOutpoint
deriving DecidableEq

structure ContractDeclaration where
  contractId : ContractId
  params : BinaryMarketParams
deriving DecidableEq

structure TransitionRecord where
  kind : ℕ
  payload : Bytes
deriving DecidableEq

structure StateUpdate where
  contractId : ContractId
  oldState : BinaryMarketState
  newState : BinaryMarketState
  spentOutpoints : List OutPoint
  newOutpoints : List TrackedOutpoint
  transition : TransitionRecord
deriving DecidableEq

structure ChainTxDelta where
  position : ChainPosition
  blockHash : BlockHash
  txid : Txid
  rawTx : Transaction
  createdContracts : List ContractRecord
  stateUpdates : List StateUpdate
deriving DecidableEq

inductive RecoveryFamily where
  | binaryMarketV1
deriving DecidableEq

structure RecoveryHintDelta where
  location : RecoveryHintLocation
  creationTxid : Txid
  family : RecoveryFamily
  payload : Bytes
  associatedContract : Option ContractId
deriving DecidableEq

structure BlockDelta where
  anchor : ChainAnchor
  prevBlockHash : BlockHash
  orderedTxids : List Txid
  relevantTransactions : List ChainTxDelta
  recoveryHints : List RecoveryHintDelta
deriving DecidableEq

/-- The hash functions the store computes. -/
structure Hashing where
  txid : Transaction → Txid
  scriptHash : Script → ℕ
  digest : BlockDelta → ℕ

/-! ## Stored rows -/

structure StoredBlock where
  anchor : ChainAnchor
  prevBlockHash : BlockHash
  orderedTxids : List Txid
  deltaDigest : ℕ
deriving DecidableEq

structure StoredTransaction where
  position : ChainPosition
  blockHash : BlockHash
  txid : Txid
  rawTx : Transaction
  affectedContractIds : List ContractId
deriving DecidableEq

structure StoredOutputRef where
  position : ChainPosition
  outpoint : OutPoint
deriving DecidableEq

structure StoredHistoryEntry where
  position : ChainPosition
  txid : Txid
  oldState : BinaryMarketState
  newState : BinaryMarketState
  transition : TransitionRecord
deriving DecidableEq

abbrev StoredRecoveryHint : Type := RecoveryHintDelta

/-- Scan cursor of a contract registered after its creation block had been
indexed. -/
structure BackfillProgress where
  contractId : ContractId
  pinnedTip : ChainAnchor
  nextPosition : ChainPosition
  lastApplied : Option (ChainAnchor × ℕ)
deriving DecidableEq

structure RegistrationEvidence where
  anchor : ChainAnchor
  transaction : Transaction
  associatedHint : Option RecoveryHintLocation
deriving DecidableEq

structure OutpointOwner where
  contractId : ContractId
  role : ℕ
deriving DecidableEq

inductive SyncStatus where
  | starting
  | syncing
  | ready
  | rescanRequired
  | backendUnavailable
deriving DecidableEq

structure EventCursor where
  epoch : ℕ
  sequence : ℕ
deriving DecidableEq

instance : LinearOrder EventCursor :=
  LinearOrder.lift' (fun cursor => toLex (cursor.epoch, cursor.sequence)) (by
    rintro ⟨epoch, sequence⟩ ⟨epoch', sequence'⟩ heq
    have hpair := congrArg ofLex heq
    simp_all)

inductive StoredEvent where
  | contractRegistered (contractId : ContractId)
  | transactionApplied (anchor : ChainAnchor) (txid : Txid)
      (position : ChainPosition) (affectedContractIds : List ContractId)
  | backfillApplied (contractId : ContractId) (through : ChainAnchor) (transitionCount : ℕ)
  | contractReady (contractId : ContractId) (through : ChainAnchor)
  | chainRolledBack (oldTip newTip : ChainAnchor) (orphanedPositions : List ChainPosition)
      (affectedContractIds : List ContractId)
  | syncStatusChanged (status : SyncStatus)
deriving DecidableEq

/-! ## The undo journal -/

structure ContractUndo where
  contractId : ContractId
  before : Option ContractRecord
deriving DecidableEq

structure BackfillProgressUndo where
  contractId : ContractId
  before : Option BackfillProgress
deriving DecidableEq

structure UndoBlock where
  previousTip : ChainAnchor
  contractChanges : List ContractUndo := []
  transactionPositions : List ChainPosition := []
  outputOutpoints : List OutPoint := []
  historyKeys : List (ContractId × ChainPosition) := []
  recoveryLocations : List RecoveryHintLocation := []
  backfillProgressChanges : List BackfillProgressUndo := []
deriving DecidableEq

/-! ## Tables -/

abbrev HistoryKey : Type := ContractId ×ₗ ChainPosition

instance : Std.TransOrd HistoryKey := inferInstance

def historyKey (contractId : ContractId) (position : ChainPosition) :
    HistoryKey := toLex (contractId, position)

abbrev ContractOutpointKey : Type := ContractId ×ₗ ℕ

def contractOutpointKey (contractId : ContractId) (role : ℕ) :
    ContractOutpointKey := toLex (contractId, role)

abbrev ScriptKey : Type := ℕ ×ₗ ContractId ×ₗ ℕ

abbrev AssetKey : Type := AssetId ×ₗ ℕ ×ₗ ContractId ×ₗ ℕ

def assetKey (contractId : ContractId) (binding : AssetBinding) : AssetKey :=
  toLex (binding.assetId, toLex (binding.relation.tag, toLex (contractId, binding.role)))

structure ContractTables where
  contracts : Table ContractId ContractRecord
  outpointOwners : Table OutPoint OutpointOwner
  contractOutpoints : Table ContractOutpointKey OutPoint
  scriptIndex : Table ScriptKey ScriptBinding
  assetRelations : Table AssetKey AssetBinding

/-- Everything which is derived from the chain and replaced by a rebuild. -/
structure ChainTables where
  tip : ChainAnchor
  blocks : Table ℕ StoredBlock
  transactions : Table ChainPosition StoredTransaction
  outputs : Table OutPoint StoredOutputRef
  contractTables : ContractTables
  recoveryHints : Table RecoveryHintLocation StoredRecoveryHint
  contractHistory : Table HistoryKey StoredHistoryEntry
  backfillProgress : Table ContractId BackfillProgress

structure EventJournal where
  epoch : ℕ
  sequence : ℕ
  rows : Table EventCursor StoredEvent

/-- An initialised store. -/
structure Store where
  chain : ChainTables
  undoBlocks : Table ℕ UndoBlock
  retainedDeclarations : Table ContractId ContractDeclaration
  journal : EventJournal
  activationAnchor : ChainAnchor
  syncStatus : SyncStatus

inductive StoreError where
  | heightOverflow
  | positionOverflow
  | nonContiguousBlock (current proposed : ChainAnchor) (proposedPreviousHash : BlockHash)
  | forkConflict (height : ℕ)
  | invalidBlock (reason : String)
  | invalidContract (reason : String)
  | invalidTransition (reason : String)
  | contractAlreadyExists (contractId : ContractId)
  | invalidRegistrationEvidence (reason : String)
  | missingRegistrationTransaction (position : ChainPosition)
  | registrationTransactionConflict (position : ChainPosition)
  | contractNotFound (contractId : ContractId)
  | stateMismatch (contractId : ContractId)
  | outpointAlreadyOwned (outpoint : OutPoint) (owner : ContractId)
  | unaccountedTrackedInput (outpoint : OutPoint) (owner : ContractId)
  | duplicateHistory (contractId : ContractId) (position : ChainPosition)
  | duplicateRecoveryHint (location : RecoveryHintLocation)
  | missingOutput (outpoint : OutPoint)
  | missingOutputTransaction (position : ChainPosition)
  | missingBackfillProgress (contractId : ContractId)
  | invalidBackfill (reason : String)
  | backfillBranchChanged (anchor : ChainAnchor)
  | backfillPositionMismatch (contractId : ContractId) (expected : ChainPosition) (blockHeight : ℕ)
  | backfillTransactionConflict (position : ChainPosition)
  | transitionCountOverflow
  | eventSequenceOverflow
  | rebuildRequired
  | rebuildNotRequired
  | preActivationContract (activation : ChainAnchor)
  | invalidRollbackTarget (oldTip ancestor : ChainAnchor)
  | missingUndo (height : ℕ)
  | ancestorMismatch (expected restored : ChainAnchor)
deriving DecidableEq

end DeadcatNode
