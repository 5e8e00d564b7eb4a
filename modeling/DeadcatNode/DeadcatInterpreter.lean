import DeadcatNode.BinaryMarketSpend
import DeadcatNode.ChainInterpretation
import DeadcatNode.MarketCreation

/-!
# The interpreter of confirmed transactions

A transaction is read against the store and against what earlier transactions
of its block have done.  Creations are discovered from hints and from retained
declarations; every contract whose tracked output is spent gives one state
update.  A transaction yields one consistent batch or an error.
-/

namespace DeadcatNode

open Checked
open KeyEncoding (bigEndian)

inductive NodeInterpretError where
  | store (error : StoreError)
  | contract (error : InterpretError)
  | missingContract (contractId : ContractId)
  | missingOutput (outpoint : OutPoint)
  | invalidLiveSet (contractId : ContractId)
  | duplicateOverlayContract (contractId : ContractId)
  | overlayStateMismatch (contractId : ContractId)
  | incompleteSpend (contractId : ContractId)
  | sameBlockDoubleSpend (outpoint : OutPoint) (contractId : ContractId)
  | discoveryConflict (contractId : ContractId)
  | missingAssociatedHint
  | conflictingAtomicBatch
deriving DecidableEq

/-! ## Reads of the store -/

structure StoredOutput where
  position : ChainPosition
  outpoint : OutPoint
  output : TxOut
deriving DecidableEq

def Store.output (store : Store) (outpoint : OutPoint) : Except StoreError (Option StoredOutput) :=
  match store.chain.outputs[outpoint]? with
  | none => .ok none
  | some reference => do
      let transaction ← okOr store.chain.transactions[reference.position]?
        (.missingOutputTransaction reference.position)
      let output ← okOr transaction.rawTx.output[outpoint.vout]? (.missingOutput outpoint)
      return some ⟨reference.position, outpoint, output⟩

def Store.contract (store : Store) (contractId : ContractId) : Option ContractRecord :=
  (store.chain.contractTables.contracts[contractId]?).map (normalizeReadyAnchor · store.chain.tip)

def Store.outpointOwner (store : Store) (outpoint : OutPoint) : Option OutpointOwner :=
  store.chain.contractTables.outpointOwners[outpoint]?

/-! ## The overlay of earlier transactions -/

inductive OwnerResolution where
  | untracked
  | live (owner : OutpointOwner)
  | spentEarlier (contractId : ContractId)
deriving DecidableEq

/-- What a contract did with an outpoint: it spent it, or it tracks it now. -/
def resolveInUpdate (outpoint : OutPoint) (update : StateUpdate) : Option OwnerResolution :=
  if outpoint ∈ update.spentOutpoints then
    some (.spentEarlier update.contractId)
  else (update.newOutpoints.find? fun tracked =>
    tracked.outpoint = outpoint).map fun tracked => .live ⟨update.contractId, tracked.role⟩

def resolveInCreation (outpoint : OutPoint) (contract : ContractRecord) : Option OwnerResolution :=
  (contract.outpoints.find? fun tracked =>
    tracked.outpoint = outpoint).map fun tracked => .live ⟨contract.contractId, tracked.role⟩

/-- Within a transaction updates count as later than creations. -/
def resolveInDelta (outpoint : OutPoint) (delta : ChainTxDelta) : Option OwnerResolution :=
  (delta.stateUpdates.reverse.findSome? (resolveInUpdate outpoint)).or
    (delta.createdContracts.reverse.findSome? (resolveInCreation outpoint))

def ownerInContext (context : InterpretationContext) (outpoint : OutPoint) : OwnerResolution :=
  match context.priorTransactions.reverse.findSome? (resolveInDelta outpoint) with
  | some resolution => resolution
  | none =>
    match context.store.outpointOwner outpoint with
    | some owner => .live owner
    | none => .untracked

def ensureCompleteSpend (record : ContractRecord) (spent : List OutPoint) :
    Except NodeInterpretError Unit :=
  require (spent.Nodup ∧ (∀ tracked ∈ record.outpoints, tracked.outpoint ∈ spent) ∧
      ∀ outpoint ∈ spent, outpoint ∈ record.outpoints.map TrackedOutpoint.outpoint)
    (.incompleteSpend record.contractId)

def overlayUpdate (contractId : ContractId) (current : Option ContractRecord)
    (update : StateUpdate) : Except NodeInterpretError (Option ContractRecord) := do
  let record ← okOr current (.missingContract contractId)
  require (record.state = update.oldState) (.overlayStateMismatch contractId)
  ensureCompleteSpend record update.spentOutpoints
  return some (record.updated update)

def overlayDelta (contractId : ContractId) (current : Option ContractRecord)
    (delta : ChainTxDelta) : Except NodeInterpretError (Option ContractRecord) := do
  let current ←
    match delta.createdContracts.find? fun record => record.contractId = contractId with
    | some created => do
        require (current = none) (.duplicateOverlayContract contractId)
        pure (some created)
    | none => pure current
  (delta.stateUpdates.filter fun update =>
    update.contractId = contractId).foldlM (overlayUpdate contractId) current

def contractInContext (context : InterpretationContext) (contractId : ContractId) :
    Except NodeInterpretError (Option ContractRecord) :=
  context.priorTransactions.foldlM (overlayDelta contractId) (context.store.contract contractId)

/-! ## Spends -/

def materializeOutput (context : InterpretationContext) (tracked : TrackedOutpoint) :
    Except NodeInterpretError TrackedContractOutput :=
  match context.priorTransactions.reverse.find? fun delta => delta.txid = tracked.outpoint.txid with
  | some delta => do
      let txout ← okOr delta.rawTx.output[tracked.outpoint.vout]? (.missingOutput tracked.outpoint)
      return ⟨tracked.outpoint, txout⟩
  | none => do
      let stored ← (context.store.output tracked.outpoint).mapError .store
      let stored ← okOr stored (.missingOutput tracked.outpoint)
      return ⟨stored.outpoint, stored.output⟩

def setOnce (slot : Option TrackedContractOutput)
    (output : TrackedContractOutput) (contractId : ContractId) :
    Except NodeInterpretError (Option TrackedContractOutput) := do
  require (slot = none) (.invalidLiveSet contractId)
  return some output

def materializeRole (context : InterpretationContext) (contractId : ContractId)
    (live : BinaryMarketLiveOutputs) (tracked : TrackedOutpoint) :
    Except NodeInterpretError BinaryMarketLiveOutputs := do
  let output ← materializeOutput context tracked
  if tracked.role = BinaryMarketSlot.dormantYesRt.tag ∨
      tracked.role = BinaryMarketSlot.unresolvedYesRt.tag then do
    let yesRt ← setOnce live.yesRt output contractId
    return { live with yesRt }
  else if tracked.role = BinaryMarketSlot.dormantNoRt.tag ∨
      tracked.role = BinaryMarketSlot.unresolvedNoRt.tag then do
    let noRt ← setOnce live.noRt output contractId
    return { live with noRt }
  else if tracked.role = BinaryMarketSlot.unresolvedCollateral.tag ∨
      tracked.role = BinaryMarketSlot.resolvedYesCollateral.tag ∨
      tracked.role = BinaryMarketSlot.resolvedNoCollateral.tag ∨
      tracked.role = BinaryMarketSlot.expiredCollateral.tag then do
    let collateral ← setOnce live.collateral output contractId
    return { live with collateral }
  else .error (.invalidLiveSet contractId)

def materializeMarketOutputs (context : InterpretationContext) (record : ContractRecord) :
    Except NodeInterpretError BinaryMarketLiveOutputs :=
  record.outpoints.foldlM (materializeRole context record.contractId) {}

def outcomeByte : BinaryOutcome → UInt8
  | .yes => 0
  | .no => 1

def boolByte (value : Bool) : UInt8 := if value then 1 else 0

/-- The history entry of a market transition: a tag, and a payload which starts
with the path. -/
def marketTransitionRecord (path : BinaryMarketPath) : BinaryMarketTransition → TransitionRecord
  | .issued pairs collateralLocked =>
    ⟨0x1001, UInt8.ofNat path.tag :: (bigEndian 8 pairs ++ bigEndian 8 collateralLocked)⟩
  | .cancelled pairs collateralReleased full =>
    ⟨0x1002, UInt8.ofNat path.tag ::
      (bigEndian 8 pairs ++ bigEndian 8 collateralReleased ++ [boolByte full])⟩
  | .resolved outcome collateralRetained =>
    ⟨0x1003, UInt8.ofNat path.tag :: outcomeByte outcome :: bigEndian 8 collateralRetained⟩
  | .expired collateralRetained =>
    ⟨0x1004, UInt8.ofNat path.tag :: bigEndian 8 collateralRetained⟩
  | .redeemed outcome tokens collateralReleased complete =>
    ⟨0x1005, UInt8.ofNat path.tag :: outcomeByte outcome ::
      (bigEndian 8 tokens ++ bigEndian 8 collateralReleased ++ [boolByte complete])⟩

section

variable (crypto : MarketCrypto) (codec : SimplicityCodec)

def interpretContract (context : InterpretationContext) (record : ContractRecord)
    (transaction : Transaction) : Except NodeInterpretError StateUpdate := do
  let live ← materializeMarketOutputs context record
  let interpreted ← (interpretBinaryMarketSpend crypto codec record.params
    record.state live transaction).mapError .contract
  ensureCompleteSpend record interpreted.spentOutpoints
  return {
    contractId := record.contractId
    oldState := record.state
    newState := interpreted.after
    spentOutpoints := interpreted.spentOutpoints
    newOutpoints := interpreted.continuations.map fun continuation =>
      ⟨continuation.slot.tag, continuation.output.outpoint⟩
    transition := marketTransitionRecord interpreted.path interpreted.transition }

def InterpretationMode.targets (mode : InterpretationMode) (contractId : ContractId) : Bool :=
  match mode with
  | .canonical => true
  | .backfill contractIds => decide (contractId ∈ contractIds)

def touchOwner (context : InterpretationContext) (touched : List ContractId)
    (input : TxIn) : Except NodeInterpretError (List ContractId) :=
  match ownerInContext context input.previousOutput with
  | .untracked => .ok touched
  | .spentEarlier contractId =>
    .error (.sameBlockDoubleSpend input.previousOutput contractId)
  | .live owner =>
    if context.mode.targets owner.contractId ∧ owner.contractId ∉ touched then
      .ok (touched ++ [owner.contractId])
    else .ok touched

def interpretTouched (context : InterpretationContext)
    (transaction : Transaction) (contractId : ContractId) :
    Except NodeInterpretError StateUpdate := do
  let record ← contractInContext context contractId
  let record ← okOr record (.missingContract contractId)
  interpretContract crypto codec context record transaction

/-! ## Creations -/

def ensureCreationIdentity (existing candidate : ContractRecord) : Except NodeInterpretError Unit :=
  require (¬(existing.kind ≠ candidate.kind ∨ existing.params ≠ candidate.params ∨
      existing.creationPosition ≠ candidate.creationPosition ∨
      existing.scripts ≠ candidate.scripts ∨
      existing.assets ≠ candidate.assets)) (.discoveryConflict candidate.contractId)

def retainCanonicalCreation (context : InterpretationContext)
    (created : List ContractRecord) (candidate : ContractRecord) :
    Except NodeInterpretError (List ContractRecord) :=
  match created.find? fun record => record.contractId = candidate.contractId with
  | some existing => do
      ensureCreationIdentity existing candidate
      return created
  | none => do
      match ← contractInContext context candidate.contractId with
      | some existing => do
          ensureCreationIdentity existing candidate
          return created
      | none => return created ++ [candidate]

end

structure DeadcatInterpreter where
  network : LiquidNetwork
  policyAsset : AssetId
deriving DecidableEq

namespace DeadcatInterpreter

variable (crypto : MarketCrypto) (codec : SimplicityCodec) (interpreter : DeadcatInterpreter)

/-- Contracts seen in a canonical block are ready as of that block. -/
def verifyCandidate (context : InterpretationContext)
    (transaction : Transaction) (suppliedParams : Option BinaryMarketParams)
    (expectedContractId : Option ContractId) :
    Option (ContractRecord × Option RecoveryHintLocation) :=
  match verifyBinaryMarketCreation crypto transaction context.position
    context.anchor interpreter.network interpreter.policyAsset suppliedParams
    expectedContractId with
  | .ok verified =>
    some ({ verified.record with syncState := .ready context.anchor }, verified.associatedHint)
  | .error _ => none

def discoverRetained (context : InterpretationContext)
    (transaction : Transaction) (created : List ContractRecord)
    (declaration : ContractDeclaration) : Except NodeInterpretError (List ContractRecord) :=
  match verifyCandidate crypto interpreter context transaction
    (some declaration.params) (some declaration.contractId) with
  | some (record, _) => retainCanonicalCreation context created record
  | none => .ok created

/-- Record the discovered contract with the first hint at its location. -/
def associateHint (outputIndex : ℕ) (contractId : ContractId) :
    List InterpretedRecoveryHint → Option (List InterpretedRecoveryHint)
  | [] => none
  | hint :: hints =>
    if hint.outputIndex = outputIndex then
      some ({ hint with associatedContract := some contractId } :: hints)
    else (associateHint outputIndex contractId hints).map (hint :: ·)

def discoverHinted (context : InterpretationContext) (transaction : Transaction)
    (created : List ContractRecord) (hints : List InterpretedRecoveryHint) :
    Except NodeInterpretError (List ContractRecord × List InterpretedRecoveryHint) :=
  match verifyCandidate crypto interpreter context transaction none none with
  | none => .ok (created, hints)
  | some (record, location) => do
      let created ← retainCanonicalCreation context created record
      match location with
      | none => return (created, hints)
      | some location => do
          let hints ← okOr (associateHint location.outputIndex record.contractId hints)
            .missingAssociatedHint
          return (created, hints)

def scannedHints (context : InterpretationContext) (transaction : Transaction) :
    List InterpretedRecoveryHint :=
  (scanTransactionHints crypto transaction context.position
    interpreter.network interpreter.policyAsset).candidates.map fun hint =>
      ⟨hint.location.outputIndex, hint.family, hint.payload, none⟩

def discover (context : InterpretationContext) (transaction : Transaction) :
    Except NodeInterpretError (List ContractRecord × List InterpretedRecoveryHint) := do
  let hints := scannedHints crypto interpreter context transaction
  let created ← context.retainedDeclarations.foldlM
    (discoverRetained crypto interpreter context transaction) []
  if hints.any fun hint => hint.family = .binaryMarketV1 then
    discoverHinted crypto interpreter context transaction created hints
  else return (created, hints)

def validateAtomicClaims (interpretation : TransactionInterpretation) :
    Except NodeInterpretError Unit :=
  let updates := interpretation.stateUpdates
  require ((interpretation.createdContracts.map ContractRecord.contractId ++
        updates.map StateUpdate.contractId).Nodup ∧
      (updates.flatMap StateUpdate.spentOutpoints).Nodup ∧
      (interpretation.createdContracts.flatMap ContractRecord.outpoints ++
        updates.flatMap StateUpdate.newOutpoints |>.map
          TrackedOutpoint.outpoint).Nodup) .conflictingAtomicBatch

def interpretTransaction : ChainInterpreter NodeInterpretError :=
  fun context transaction => do
    let (createdContracts, recoveryHints) ←
      match context.mode with
      | .canonical => discover crypto interpreter context transaction
      | .backfill _ => .ok ([], [])
    let touched ← transaction.input.foldlM (touchOwner context) []
    let stateUpdates ← touched.mapM (interpretTouched crypto codec context transaction)
    let result : TransactionInterpretation := ⟨createdContracts, stateUpdates, recoveryHints⟩
    validateAtomicClaims result
    return result

end DeadcatInterpreter

end DeadcatNode
