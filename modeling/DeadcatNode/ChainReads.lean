import DeadcatNode.RebuildEpochs
import DeadcatNode.StoreQueries

/-!
# Requests which read chain state

The request handler answers a request with several separate reads while other
tasks write to the store.  It takes the event epoch before and after and returns
an answer only when both agree and the store is valid.  A call is modelled as a
program which reads the store at moments of its own, run against calls of the
store in any order.
-/

namespace DeadcatNode

open Checked

/-! ## Requests and responses -/

inductive RpcErrorCode where
  | notFound
  | notSynced
  | rescanRequired
  | snapshotInvalidated
  | invalidTransaction
  | covenantInvariantViolation
  | backendUnavailable
deriving DecidableEq

/-- A message of the handler, or an error it reports in its own words. -/
inductive RpcMessage where
  | text (message : String)
  | query (error : QueryError)
  | interpretation (error : NodeInterpretError)
deriving DecidableEq

structure RpcError where
  code : RpcErrorCode
  message : RpcMessage
deriving DecidableEq

structure PageRequest where
  cursor : Option StoreSnapshotCursor
  limit : ℕ
deriving DecidableEq

/-- The requests of a client.  What the requests which do not read chain state
carry is left out. -/
inductive Request where
  | getInfo
  | registerContractPackage
  | getContract (contractId : ContractId)
  | listMarkets (page : PageRequest)
  | getMarketSnapshot (marketId : ContractId)
  | listRecoveryHints (family : Option RecoveryFamily) (page : PageRequest)
  | getContractHistory (contractId : ContractId) (after : Option ChainPosition) (limit : ℕ)
  | getTransaction (position : ChainPosition)
  | interpretTransaction (transaction : Transaction)
  | lookupAsset (assetId : AssetId)
  | estimateFeerate
  | broadcastSignedTransaction
  | subscribeEvents
deriving DecidableEq

structure ContractView where
  contractId : ContractId
  kind : ContractKind
  syncState : ContractSyncState
  creationPosition : ChainPosition
  parameters : BinaryMarketParams
  state : BinaryMarketState
  liveOutpoints : List TrackedOutpoint
deriving DecidableEq

structure MarketSnapshot where
  snapshot : StoreSnapshotMetadata
  contract : ContractView
  params : BinaryMarketParams
  state : BinaryMarketState
  liveOutpoints : List TrackedOutpoint
deriving DecidableEq

structure HistoryEntry where
  position : ChainPosition
  txid : Txid
  transitionKind : ℕ
  transitionPayload : Bytes
deriving DecidableEq

structure ContractHistoryPage where
  snapshot : StoreSnapshotMetadata
  contractId : ContractId
  entries : List HistoryEntry
  next : Option ChainPosition
deriving DecidableEq

structure InterpretedTransition where
  contractId : ContractId
  kind : ℕ
  payload : Bytes
deriving DecidableEq

inductive Response where
  | contract (contract : Option ContractView)
  | markets (page : MaterializedPage ContractView)
  | marketSnapshot (snapshot : MarketSnapshot)
  | contractHistory (page : ContractHistoryPage)
  | transaction (evidence : Option StoredTransaction)
  | recoveryHints (page : MaterializedPage StoredRecoveryHint)
  | asset (assetId : AssetId) (relations : List AssetRelationRecord)
  | interpretation (txid : Txid) (createdContracts : List ContractView)
      (transitions : List InterpretedTransition)

def rescanRequiredError : RpcError :=
  ⟨.rescanRequired, .text "chain-derived state is unavailable until the required rebuild completes"⟩

def queryError (error : QueryError) : RpcError :=
  match error with
  | .invalidQueryLimit => ⟨.backendUnavailable, .query error⟩
  | _ => ⟨.snapshotInvalidated, .query error⟩

def contractView (record : ContractRecord) : ContractView where
  contractId := record.contractId
  kind := record.kind
  syncState := record.syncState
  creationPosition := record.creationPosition
  parameters := record.params
  state := record.state
  liveOutpoints := record.outpoints

def MaterializedPage.map {α β : Type} (f : α → β) (page : MaterializedPage α) :
    MaterializedPage β :=
  ⟨page.snapshot, page.items.map f, page.next⟩

def validateLimit (limit : ℕ) : Except RpcError Unit :=
  require (¬(limit = 0 ∨ 1000 < limit))
    ⟨.invalidTransaction, .text "page limit must be in 1..=1000"⟩

/-! ## Answers from one read -/

def NodeRpcHandler.listMarkets (store : Store) (page : PageRequest) : Except RpcError Response := do
  validateLimit page.limit
  let page ← (store.readyMarkets page.cursor page.limit).mapError queryError
  return .markets (page.map contractView)

def NodeRpcHandler.marketSnapshot (store : Store) (marketId : ContractId) :
    Except RpcError Response := do
  let (snapshot, record) := store.contractSnapshot marketId
  let record ← okOr record ⟨.notFound, .text "market not found"⟩
  require (record.kind = .binaryMarketV1)
    ⟨.invalidTransaction, .text "contract is not a binary market"⟩
  require (record.syncState.isCatchingUp = false)
    ⟨.notSynced, .text "market registration is still catching up"⟩
  return .marketSnapshot {
    snapshot
    contract := contractView record
    params := record.params
    state := record.state
    liveOutpoints := record.outpoints }

def NodeRpcHandler.contractHistory (store : Store) (contractId : ContractId)
    (after : Option ChainPosition) (limit : ℕ) : Except RpcError Response := do
  let (snapshot, contract, history) := store.contractHistorySnapshot contractId
  require (contract ≠ none) ⟨.notFound, .text "contract not found"⟩
  let history := (history.filter fun entry =>
    ∀ position ∈ after, position < entry.position).insertionSort fun entry other =>
      entry.position ≤ other.position
  let kept := history.take limit
  return .contractHistory {
    snapshot
    contractId
    entries := kept.map fun entry =>
      ⟨entry.position, entry.txid, entry.transition.kind, entry.transition.payload⟩
    next := if limit < history.length then
        kept.getLast?.map StoredHistoryEntry.position
      else none }

def NodeRpcHandler.recoveryHints (store : Store) (family : Option RecoveryFamily)
    (page : PageRequest) : Except RpcError Response := do
  let page ← (store.scanRecoveryHints family page.cursor page.limit).mapError queryError
  return .recoveryHints page

/-! ## Programs which read the store -/

/-- A computation which reads the store in separate transactions. -/
inductive Reads (α : Type) where
  | done (value : α)
  | read (next : Store → Reads α)

def Reads.map {α β : Type} (f : α → β) : Reads α → Reads β
  | .done value => .done (f value)
  | .read next => .read fun store => (next store).map f

/-- How the interpreter reads the store for one transaction on top of a tip. -/
abbrev InterpreterReads : Type :=
  StoreSnapshotMetadata → Transaction → Reads (Except NodeInterpretError TransactionInterpretation)

def Request.requestReadsChainState : Request → Bool
  | .getInfo | .registerContractPackage | .estimateFeerate
  | .broadcastSignedTransaction | .subscribeEvents => false
  | _ => true

/-- The body of a request which reads chain state.  Its result is either an error
which is returned at once or the response which is still to be checked. -/
abbrev Body : Type := Reads (Except RpcError (Except RpcError Response))

section

variable (hashing : Hashing) (interpret : InterpreterReads)

def interpretation (transaction : Transaction)
    (interpreted : TransactionInterpretation) : Response :=
  .interpretation (hashing.txid transaction) (interpreted.createdContracts.map contractView)
    (interpreted.stateUpdates.map fun update =>
      ⟨update.contractId, update.transition.kind, update.transition.payload⟩)

def Request.body : Request → Option Body
  | .getContract contractId =>
    some (.read fun store =>
      .done (.ok (.ok (.contract ((store.contract contractId).map contractView)))))
  | .listMarkets page =>
    some (.read fun store => .done (.ok (NodeRpcHandler.listMarkets store page)))
  | .getMarketSnapshot marketId =>
    some (.read fun store => .done (.ok (NodeRpcHandler.marketSnapshot store marketId)))
  | .listRecoveryHints family page =>
    some (match validateLimit page.limit with
      | .error error => .done (.error error)
      | .ok () => .read fun store =>
        .done ((NodeRpcHandler.recoveryHints store family page).map .ok))
  | .getContractHistory contractId after limit =>
    some (match validateLimit limit with
      | .error error => .done (.error error)
      | .ok () => .read fun store =>
        .done ((NodeRpcHandler.contractHistory store contractId after limit).map .ok))
  | .getTransaction position =>
    some (.read fun store => .done (.ok (.ok (.transaction store.chain.transactions[position]?))))
  | .lookupAsset assetId =>
    some (.read fun store => .done (.ok (.ok (.asset assetId (store.assetRelations assetId).2))))
  | .interpretTransaction transaction =>
    some (.read fun store =>
      (interpret store.snapshotMetadata transaction).map fun interpreted =>
        (interpreted.mapError fun error =>
          ⟨.covenantInvariantViolation, .interpretation error⟩).map fun found =>
            .ok (interpretation hashing transaction found))
  | _ => none

theorem Request.body_isSome (request : Request) :
    (request.body hashing interpret).isSome = request.requestReadsChainState := by
  cases request <;> rfl

/-! ## One call among other tasks -/

def availableChainStateEpoch (snapshot : StoreStatusSnapshot) : Except RpcError ℕ := do
  require (snapshot.syncStatus ≠ .rescanRequired) rescanRequiredError
  return snapshot.eventHighWatermark.epoch

inductive HandlerProgress where
  | admission
  | reading (admittedEpoch : ℕ) (body : Body)
  | checking (admittedEpoch : ℕ) (response : Except RpcError Response)
  | finished (result : Except RpcError Response)

def HandlerProgress.advance (body : Body) (store : Store) : HandlerProgress → HandlerProgress
  | .admission =>
    match availableChainStateEpoch store.statusSnapshot with
    | .error error => .finished (.error error)
    | .ok epoch => .reading epoch body
  | .reading epoch (.read next) => .reading epoch (next store)
  | .reading _ (.done (.error error)) => .finished (.error error)
  | .reading epoch (.done (.ok response)) => .checking epoch response
  | .checking epoch response =>
    match availableChainStateEpoch store.statusSnapshot with
    | .error error => .finished (.error error)
    | .ok current =>
      if current ≠ epoch then .finished (.error rescanRequiredError)
      else .finished response
  | .finished result => .finished result

structure ReadSystem where
  store : Store
  call : HandlerProgress

inductive ReadEvent where
  | commit (operation : StoreOperation)
  | advance

def ReadEvent.operation? : ReadEvent → Option StoreOperation
  | .commit operation => some operation
  | .advance => none

def ReadSystem.step (body : Body) (system : ReadSystem) : ReadEvent → ReadSystem
  | .commit operation =>
    { system with store := system.store.attempt hashing operation }
  | .advance => { system with call := system.call.advance body system.store }

def ReadSystem.run (body : Body) (system : ReadSystem) (events : List ReadEvent) : ReadSystem :=
  events.foldl (step hashing body) system

end

namespace ReadSystem

variable {hashing : Hashing} {body : Body} {system : ReadSystem}

theorem run_append (events later : List ReadEvent) : system.run hashing body (events ++ later) =
      (system.run hashing body events).run hashing body later :=
  List.foldl_append

def operations (events : List ReadEvent) : List StoreOperation :=
  events.filterMap ReadEvent.operation?

@[simp] theorem operations_append (events later : List ReadEvent) :
    operations (events ++ later) = operations events ++ operations later :=
  List.filterMap_append

@[simp] theorem operations_advance (events : List ReadEvent) :
    operations (.advance :: events) = operations events :=
  List.filterMap_cons_none rfl

@[simp] theorem operations_commit (operation : StoreOperation) (events : List ReadEvent) :
    operations (.commit operation :: events) = operation :: operations events :=
  List.filterMap_cons_some rfl

theorem run_store (system : ReadSystem) (events : List ReadEvent) :
    (system.run hashing body events).store = system.store.attempts hashing (operations events) := by
  induction events generalizing system with
  | nil => rfl
  | cons event rest ih =>
    have hstep : system.run hashing body (event :: rest) =
        (system.step hashing body event).run hashing body rest := rfl
    rw [hstep, ih]
    cases event with
    | commit operation =>
      rw [operations_commit]
      rfl
    | advance =>
      rw [operations_advance]
      rfl

def start (store : Store) : ReadSystem := ⟨store, .admission⟩

def Admitted (hashing : Hashing) (body : Body) (store : Store)
    (events : List ReadEvent) (epoch : ℕ) : Prop :=
  ∃ before during, events = before ++ .advance :: during ∧
    ((start store).run hashing body before).call = .admission ∧
    (store.attempts hashing (operations before)).syncStatus ≠ .rescanRequired ∧
    (store.attempts hashing (operations before)).journal.epoch = epoch

def Checked (hashing : Hashing) (body : Body) (store : Store)
    (events : List ReadEvent) (response : Response) : Prop :=
  ∃ middle after epoch, events = middle ++ .advance :: after ∧
    Admitted hashing body store middle epoch ∧
    ((start store).run hashing body middle).call = .checking epoch (.ok response) ∧
    (store.attempts hashing (operations middle)).syncStatus ≠ .rescanRequired ∧
    (store.attempts hashing (operations middle)).journal.epoch = epoch

/-- What the events so far say about a call. -/
def Explained (hashing : Hashing) (body : Body) (store : Store)
    (events : List ReadEvent) : HandlerProgress → Prop
  | .admission => True
  | .reading epoch _ | .checking epoch _ => Admitted hashing body store events epoch
  | .finished (.ok response) => Checked hashing body store events response
  | .finished (.error _) => True

variable {store : Store} {events : List ReadEvent}

theorem Admitted.snoc {epoch : ℕ}
    (hadmitted : Admitted hashing body store events epoch) (event : ReadEvent) :
    Admitted hashing body store (events ++ [event]) epoch := by
  obtain ⟨before, during, rfl, hcall⟩ := hadmitted
  exact ⟨before, during ++ [event], by simp, hcall⟩

theorem Checked.snoc {response : Response}
    (hchecked : Checked hashing body store events response) (event : ReadEvent) :
    Checked hashing body store (events ++ [event]) response := by
  obtain ⟨middle, after, epoch, rfl, hcall⟩ := hchecked
  exact ⟨middle, after ++ [event], epoch, by simp, hcall⟩

theorem Explained.snoc {progress : HandlerProgress}
    (hexplained : Explained hashing body store events progress) (event : ReadEvent) :
    Explained hashing body store (events ++ [event]) progress := by
  cases progress with
  | admission => trivial
  | reading | checking => exact Admitted.snoc hexplained event
  | finished result =>
    cases result with
    | error error => trivial
    | ok response => exact Checked.snoc hexplained event

theorem availableChainStateEpoch_eq_ok {epoch : ℕ} :
    availableChainStateEpoch store.statusSnapshot = .ok epoch ↔
      store.syncStatus ≠ .rescanRequired ∧ store.journal.epoch = epoch := by
  simp only [availableChainStateEpoch, bind_eq_ok, require_eq_ok, pure_eq_ok]
  constructor
  · rintro ⟨_, hstatus, rfl⟩
    exact ⟨hstatus, rfl⟩
  · rintro ⟨hstatus, rfl⟩
    exact ⟨(), hstatus, rfl⟩

theorem explained_advance {progress : HandlerProgress}
    (hcall : ((start store).run hashing body events).call = progress)
    (hexplained : Explained hashing body store events progress) :
    Explained hashing body store (events ++ [.advance])
      (progress.advance body (store.attempts hashing (operations events))) := by
  cases progress with
  | admission =>
    unfold HandlerProgress.advance
    cases havailable : availableChainStateEpoch
        (store.attempts hashing (operations events)).statusSnapshot with
    | error error => trivial
    | ok epoch =>
      exact ⟨events, [], rfl, hcall, availableChainStateEpoch_eq_ok.mp havailable⟩
  | reading epoch program =>
    cases program with
    | read next => exact Admitted.snoc hexplained _
    | done result =>
      cases result with
      | error error => trivial
      | ok response => exact Admitted.snoc hexplained _
  | checking epoch response =>
    unfold HandlerProgress.advance
    cases havailable : availableChainStateEpoch
        (store.attempts hashing (operations events)).statusSnapshot with
    | error error => trivial
    | ok current =>
      obtain ⟨hstatus, hcurrent⟩ := availableChainStateEpoch_eq_ok.mp havailable
      by_cases hdiffers : current ≠ epoch
      · simp only [if_pos hdiffers]
        trivial
      · simp only [if_neg hdiffers]
        rw [not_not] at hdiffers
        cases response with
        | error error => trivial
        | ok response =>
          exact ⟨events, [], epoch, rfl, hexplained, hcall, hstatus, hcurrent.trans hdiffers⟩
  | finished result => exact hexplained.snoc _

theorem run_explained (events : List ReadEvent) :
    Explained hashing body store events ((start store).run hashing body events).call := by
  induction events using List.reverseRecOn with
  | nil => trivial
  | append_singleton events event ih =>
    rw [run_append]
    cases event with
    | commit operation => exact ih.snoc _
    | advance =>
      have hstore : ((start store).run hashing body events).store =
          store.attempts hashing (operations events) := run_store _ events
      have hadvanced := explained_advance rfl ih
      rw [← hstore] at hadvanced
      exact hadvanced

/-- Chain reads fail closed around a rebuild.  When a call returns a response, the
store was valid at every moment from its first check to its last one, so that no
reset could take place in between; and the invalid state is left only by a reset,
before which no call changes anything. -/
theorem chain_reads_fail_closed (hashing : Hashing) (interpret : InterpreterReads)
    (anchor : ChainAnchor) (epoch : ℕ) :
    (∀ request : Request, request.requestReadsChainState = true →
      ∃ body, request.body hashing interpret = some body ∧ ∀ events response,
      (Store.initial anchor epoch).FreshEpochs hashing (operations events) →
      ((start (.initial anchor epoch)).run hashing body events).call = .finished (.ok response) →
      ∃ before during after, events = (before ++ .advance :: during) ++ .advance :: after ∧
        ((start (.initial anchor epoch)).run hashing body before).call = .admission ∧
        (∃ admitted, ((start (.initial anchor epoch)).run hashing body
          (before ++ .advance :: during)).call = .checking admitted (.ok response)) ∧
        ∀ seen, seen <+: during → ((start (.initial anchor epoch)).run hashing body
            (before ++ .advance :: seen)).store.syncStatus ≠ .rescanRequired ∧
          ((start (.initial anchor epoch)).run hashing body
            (before ++ .advance :: seen)).store.perform hashing .resetForRebuild =
              .error .rebuildNotRequired) ∧
    ∀ (operations : List StoreOperation) (operation : StoreOperation),
      ((Store.initial anchor epoch).attempts hashing operations).syncStatus = .rescanRequired →
      operation ≠ .resetForRebuild →
      (Store.initial anchor epoch).attempts hashing (operations ++ [operation]) =
        (Store.initial anchor epoch).attempts hashing operations := by
  constructor
  · intro request hreads
    obtain ⟨body, hbody⟩ := Option.isSome_iff_exists.mp
      ((request.body_isSome hashing interpret).trans hreads)
    refine ⟨body, hbody, fun events response hfresh hfinished => ?_⟩
    have hexplained : Explained hashing body (Store.initial anchor epoch) events
        ((start (.initial anchor epoch)).run hashing body events).call :=
      run_explained events
    rw [hfinished] at hexplained
    obtain ⟨middle, after, admitted, rfl, ⟨before, during, rfl, hcall, hvalid, hepoch⟩,
      hchecking, hstatus, hlast⟩ := hexplained
    refine ⟨before, during, after, rfl, hcall, ⟨admitted, hchecking⟩, ?_⟩
    simp only [operations_append, operations_advance] at hfresh hlast
    -- The two readings of the epoch agree, so the state was not entered.
    rcases Store.epoch_after hfresh.of_append hvalid with ⟨hnever, -⟩ | hdiffers
    · intro seen hseen
      have hstore : ((start (.initial anchor epoch)).run hashing body
          (before ++ .advance :: seen)).store =
          (Store.initial anchor epoch).attempts hashing (operations before ++ operations seen) := by
        rw [run_store, operations_append, operations_advance]
        rfl
      have hnow := hnever (operations seen) (hseen.filterMap _)
      rw [hstore]
      refine ⟨hnow, ?_⟩
      simp only [Store.perform, Store.resetForRebuild, require, if_neg hnow]
      rfl
    · exact absurd (hlast.trans hepoch.symm) hdiffers
  · intro operations operation hstatus hoperation
    rw [Store.attempts_append]
    exact Store.attempt_invalid hstatus hoperation

/-- A call after a rebuild returns what it reads; one around it does not. -/
theorem chain_reads_fail_closed_transaction :
    let hashing : Hashing := ⟨fun _ => 0, fun _ => 0, fun _ => 0⟩
    let rebuild := [.commit (.invalidateForRebuild 2), .commit .resetForRebuild]
    let calls := [.advance, .advance, .advance, .advance]
    ∃ body : Body, ((start (.initial ⟨0, 0⟩ 1)).run hashing body
        (.advance :: rebuild ++ calls)).call = .finished (.error rescanRequiredError) ∧
      ((start (.initial ⟨0, 0⟩ 1)).run hashing body (rebuild ++ calls)).call =
        .finished (.ok (.transaction none)) ∧
      ∃ before during after,
        rebuild ++ calls = (before ++ .advance :: during) ++ .advance :: after ∧
        ∀ seen, seen <+: during → ((start (.initial ⟨0, 0⟩ 1)).run hashing body
          (before ++ .advance :: seen)).store.syncStatus ≠ .rescanRequired := by
  intro hashing rebuild calls
  have hfresh : (Store.initial ⟨0, 0⟩ 1).FreshEpochs hashing (operations (rebuild ++ calls)) := by
    rintro (_ | ⟨first, _ | ⟨second, rest⟩⟩) operation after hsplit hvalid - earlier hearlier
    · cases hsplit
      rw [List.prefix_nil.mp hearlier]
      decide
    · cases hsplit
      exact absurd rfl hvalid
    · have hlength : 2 = _ := congrArg List.length hsplit
      simp only [List.length_append, List.length_cons] at hlength
      omega
  obtain ⟨body, hbody, hclosed⟩ := (chain_reads_fail_closed hashing
    (fun _ _ => .done (.error (.missingOutput ⟨0, 0⟩))) ⟨0, 0⟩ 1).1 (.getTransaction ⟨1, 0⟩) rfl
  cases hbody
  obtain ⟨before, during, after, hsplit, -, -, hvalid⟩ := hclosed _ _ hfresh rfl
  exact ⟨_, rfl, rfl, before, during, after, hsplit, fun seen hseen => (hvalid seen hseen).1⟩

end ReadSystem

end DeadcatNode
