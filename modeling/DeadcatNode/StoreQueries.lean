import DeadcatNode.DeadcatInterpreter

/-!
# Queries of the store

The reads the request handler makes.  Each of them is one read transaction, so
all it returns comes from one state of the store.  A page carries a cursor which
is accepted only while the store is as it was when the page was read.
-/

namespace DeadcatNode

open Checked

structure StoreSnapshotMetadata where
  asOf : ChainAnchor
  eventHighWatermark : EventCursor
deriving DecidableEq

structure StoreStatusSnapshot where
  indexedTip : ChainAnchor
  activationAnchor : ChainAnchor
  syncStatus : SyncStatus
  eventHighWatermark : EventCursor
deriving DecidableEq

inductive SnapshotScope where
  | markets
  | recoveryHints (family : Option RecoveryFamily)
deriving DecidableEq

/-- The key a page ended with.  A client may send bytes of any length; only their
length is looked at when it is not the one of a key. -/
inductive SnapshotKey where
  | contract (contractId : ContractId)
  | hint (location : RecoveryHintLocation)
  | malformed (length : ℕ) (hlength : length ≠ 36 ∧ length ≠ 12)
deriving DecidableEq

namespace SnapshotKey

def length : SnapshotKey → ℕ
  | .contract _ => 36
  | .hint _ => 12
  | .malformed length _ => length

def contractId? : SnapshotKey → Option ContractId
  | .contract contractId => some contractId
  | _ => none

def location? : SnapshotKey → Option RecoveryHintLocation
  | .hint location => some location
  | _ => none

end SnapshotKey

structure StoreSnapshotCursor where
  asOf : ChainAnchor
  eventHighWatermark : EventCursor
  scope : SnapshotScope
  afterKey : SnapshotKey
deriving DecidableEq

structure MaterializedPage (α : Type) where
  snapshot : StoreSnapshotMetadata
  items : List α
  next : Option StoreSnapshotCursor

inductive QueryError where
  | invalidQueryLimit
  | staleSnapshotCursor (expected actual : StoreSnapshotMetadata)
  | invalidSnapshotKey (expected actual : ℕ)
  | snapshotScopeMismatch (expected actual : SnapshotScope)
deriving DecidableEq

structure AssetRelationRecord where
  contractId : ContractId
  binding : AssetBinding
deriving DecidableEq

def validateSnapshotCursor (cursor : Option StoreSnapshotCursor)
    (snapshot : StoreSnapshotMetadata) (scope : SnapshotScope) (keyLength : ℕ) :
    Except QueryError Unit :=
  match cursor with
  | none => .ok ()
  | some cursor => do
      require (cursor.asOf = snapshot.asOf ∧
          cursor.eventHighWatermark = snapshot.eventHighWatermark)
        (.staleSnapshotCursor snapshot ⟨cursor.asOf, cursor.eventHighWatermark⟩)
      require (cursor.afterKey.length = keyLength)
        (.invalidSnapshotKey keyLength cursor.afterKey.length)
      require (cursor.scope = scope) (.snapshotScopeMismatch scope cursor.scope)

/-- A page of at most `limit` rows out of rows which were collected up to one
more. -/
def materializedPage {α : Type} (snapshot : StoreSnapshotMetadata)
    (scope : SnapshotScope) (rows : List (SnapshotKey × α)) (limit : ℕ) : MaterializedPage α :=
  if limit < rows.length then
    let rows := rows.dropLast
    { snapshot
      items := rows.map Prod.snd
      next := rows.getLast?.map fun row =>
        ⟨snapshot.asOf, snapshot.eventHighWatermark, scope, row.1⟩ }
  else { snapshot, items := rows.map Prod.snd, next := none }

namespace Store

variable (store : Store)

def snapshotMetadata : StoreSnapshotMetadata :=
  ⟨store.chain.tip, store.journal.highWatermark⟩

def statusSnapshot : StoreStatusSnapshot :=
  ⟨store.chain.tip, store.activationAnchor, store.syncStatus, store.journal.highWatermark⟩

def contractSnapshot (contractId : ContractId) : StoreSnapshotMetadata × Option ContractRecord :=
  (store.snapshotMetadata, store.contract contractId)

def readyMarkets (cursor : Option StoreSnapshotCursor) (limit : ℕ) :
    Except QueryError (MaterializedPage ContractRecord) := do
  require (limit ≠ 0) .invalidQueryLimit
  let snapshot := store.snapshotMetadata
  validateSnapshotCursor cursor snapshot .markets 36
  let after := cursor.bind fun cursor => cursor.afterKey.contractId?
  let rows := store.chain.contractTables.contracts.toList.filter fun row =>
    (∀ key ∈ after, key < row.1) ∧ row.2.kind = .binaryMarketV1 ∧
      row.2.syncState.isCatchingUp = false
  return materializedPage snapshot .markets ((rows.take (limit + 1)).map fun row =>
      (.contract row.1, normalizeReadyAnchor row.2 snapshot.asOf)) limit

def scanRecoveryHints (family : Option RecoveryFamily)
    (cursor : Option StoreSnapshotCursor) (limit : ℕ) :
    Except QueryError (MaterializedPage StoredRecoveryHint) := do
  require (limit ≠ 0) .invalidQueryLimit
  let snapshot := store.snapshotMetadata
  validateSnapshotCursor cursor snapshot (.recoveryHints family) 12
  let after := cursor.bind fun cursor => cursor.afterKey.location?
  let rows := store.chain.recoveryHints.toList.filter fun row =>
    (∀ key ∈ after, key < row.1) ∧ ∀ wanted ∈ family, row.2.family = wanted
  return materializedPage snapshot (.recoveryHints family)
    ((rows.take (limit + 1)).map fun row => (.hint row.1, row.2)) limit

def assetRelations (assetId : AssetId) : StoreSnapshotMetadata × List AssetRelationRecord :=
  (store.snapshotMetadata, (store.chain.contractTables.assetRelations.toList.filter fun row =>
      (ofLex row.1).1 = assetId).map fun row => ⟨(ofLex (ofLex (ofLex row.1).2).2).1, row.2⟩)

def contractHistorySnapshot (contractId : ContractId) :
    StoreSnapshotMetadata × Option ContractRecord × List StoredHistoryEntry :=
  (store.snapshotMetadata, store.contract contractId,
    (store.chain.contractHistory.toList.filter fun row =>
      (ofLex row.1).1 = contractId).map Prod.snd)

end Store

end DeadcatNode
