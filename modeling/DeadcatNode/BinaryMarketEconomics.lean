import DeadcatNode.CheckedExecution

/-!
# Binary-market economics

The pure state machine behind a binary market: pairs of YES and NO tokens are
issued against collateral, cancelled back into it, and after a resolution or
an expiry single tokens are redeemed.  No transaction is inspected here.  All
amounts are 64-bit words and every arithmetic operation is checked, so an
operation which would overflow is refused.
-/

namespace DeadcatNode

open Checked

inductive BinaryOutcome where
  | yes
  | no
deriving DecidableEq

inductive BinaryMarketState where
  | trading (outstandingPairs : ℕ)
  | resolvedYes (collateralUnredeemed : ℕ)
  | resolvedNo (collateralUnredeemed : ℕ)
  | expired (collateralUnredeemed : ℕ)
deriving DecidableEq

inductive BinaryMarketPhase where
  | trading
  | resolvedYes
  | resolvedNo
  | expired
deriving DecidableEq

def BinaryMarketState.phase : BinaryMarketState → BinaryMarketPhase
  | .trading _ => .trading
  | .resolvedYes _ => .resolvedYes
  | .resolvedNo _ => .resolvedNo
  | .expired _ => .expired

inductive BinaryMarketAction where
  | issue (pairs : ℕ)
  | cancel (pairs : ℕ)
  | resolve (outcome : BinaryOutcome)
  | expire
  | redeem (outcome : BinaryOutcome) (tokens : ℕ)
deriving DecidableEq

inductive BinaryMarketOperation where
  | issue
  | cancel
  | resolve
  | expire
  | redeem
deriving DecidableEq

inductive BinaryMarketTransition where
  | issued (pairs collateralLocked : ℕ)
  | cancelled (pairs collateralReleased : ℕ) (full : Bool)
  | resolved (outcome : BinaryOutcome) (collateralRetained : ℕ)
  | expired (collateralRetained : ℕ)
  | redeemed (outcome : BinaryOutcome) (tokens collateralReleased : ℕ) (complete : Bool)
deriving DecidableEq

structure AppliedBinaryMarketTransition where
  oldState : BinaryMarketState
  newState : BinaryMarketState
  transition : BinaryMarketTransition
deriving DecidableEq

inductive BinaryMarketError where
  | invalidBasePayout (basePayout : ℕ)
  | zeroQuantity (operation : BinaryMarketOperation)
  | invalidState (operation : BinaryMarketOperation) (phase : BinaryMarketPhase)
  | outstandingPairsOverflow (current added : ℕ)
  | amountOverflow (amount unitPayout : ℕ)
  | cancellationExceedsOutstanding (requested outstanding : ℕ)
  | losingOutcome (winning attempted : BinaryOutcome)
  | redemptionExceedsCollateral (requested available : ℕ)
  | invalidStateAmount (phase : BinaryMarketPhase) (collateral unitPayout : ℕ)
deriving DecidableEq

/-- The sixteen canonical denominations. -/
def basePayouts : List ℕ :=
  [100, 200, 500, 1000, 2000, 5000, 10000, 20000, 50000, 100000, 200000,
    500000, 1000000, 2000000, 5000000, 10000000]

/-- Payout arithmetic of one market.  The fields are private in the source,
so every value comes from `new`; what `new` establishes is carried here. -/
structure BinaryMarketEconomics where
  basePayout : ℕ
  collateralPerPair : ℕ
  canonical : basePayout ∈ basePayouts
  perPair : collateralPerPair = 2 * basePayout

namespace BinaryMarketEconomics

def new (basePayout : ℕ) : Except BinaryMarketError BinaryMarketEconomics :=
  if hcanonical : basePayout ∈ basePayouts then
    match hmul : checkedMul 64 basePayout 2 with
    | some collateralPerPair =>
      .ok {
        basePayout
        collateralPerPair
        canonical := hcanonical
        perPair := by
          rw [checkedMul_eq_some] at hmul
          omega }
    | none => .error (.amountOverflow basePayout 2)
  else
    .error (.invalidBasePayout basePayout)

theorem basePayout_pos (economics : BinaryMarketEconomics) : 0 < economics.basePayout := by
  have hcanonical := economics.canonical
  simp only [basePayouts, List.mem_cons, List.not_mem_nil, or_false] at hcanonical
  omega

theorem collateralPerPair_pos (economics : BinaryMarketEconomics) :
    0 < economics.collateralPerPair := by
  have hbase := economics.basePayout_pos
  have hpair := economics.perPair
  omega

theorem collateralPerPair_lt (economics : BinaryMarketEconomics) :
    economics.collateralPerPair < 2 ^ 64 := by
  have hcanonical := economics.canonical
  have hpair := economics.perPair
  simp only [basePayouts, List.mem_cons, List.not_mem_nil, or_false] at hcanonical
  omega

theorem new_eq_ok_basePayout {basePayout : ℕ} {economics : BinaryMarketEconomics}
    (hnew : new basePayout = .ok economics) : economics.basePayout = basePayout := by
  unfold new at hnew
  split at hnew
  · split at hnew
    · cases hnew
      rfl
    · cases hnew
  · cases hnew

def checkedPayout (amount unitPayout : ℕ) : Except BinaryMarketError ℕ :=
  okOr (checkedMul 64 amount unitPayout) (.amountOverflow amount unitPayout)

def requireNonzero (operation : BinaryMarketOperation) (quantity : ℕ) :
    Except BinaryMarketError Unit :=
  require (quantity ≠ 0) (.zeroQuantity operation)

def invalidState (operation : BinaryMarketOperation)
    (state : BinaryMarketState) : BinaryMarketError :=
  .invalidState operation state.phase

def requireWinner (winning attempted : BinaryOutcome) : Except BinaryMarketError Unit :=
  require (winning = attempted) (.losingOutcome winning attempted)

variable (economics : BinaryMarketEconomics)

def collateralForPairs (pairs : ℕ) : Except BinaryMarketError ℕ :=
  checkedPayout pairs economics.collateralPerPair

def validateState (state : BinaryMarketState) : Except BinaryMarketError Unit :=
  match state with
  | .trading outstandingPairs => do
      let _ ← economics.collateralForPairs outstandingPairs
      return ()
  | .resolvedYes collateral | .resolvedNo collateral =>
    require (collateral % economics.collateralPerPair = 0)
      (.invalidStateAmount state.phase collateral economics.collateralPerPair)
  | .expired collateral =>
    require (collateral % economics.basePayout = 0)
      (.invalidStateAmount .expired collateral economics.basePayout)

def issue (state : BinaryMarketState) (pairs : ℕ) :
    Except BinaryMarketError AppliedBinaryMarketTransition := do
  requireNonzero .issue pairs
  match state with
  | .trading outstandingPairs =>
    let nextPairs ← okOr (checkedAdd 64 outstandingPairs pairs)
      (.outstandingPairsOverflow outstandingPairs pairs)
    let _ ← economics.collateralForPairs nextPairs
    let collateralLocked ← economics.collateralForPairs pairs
    return {
      oldState := state
      newState := .trading nextPairs
      transition := .issued pairs collateralLocked }
  | _ => .error (invalidState .issue state)

def cancel (state : BinaryMarketState) (pairs : ℕ) :
    Except BinaryMarketError AppliedBinaryMarketTransition := do
  requireNonzero .cancel pairs
  match state with
  | .trading outstandingPairs =>
    let remainingPairs ← okOr (checkedSub outstandingPairs pairs)
      (.cancellationExceedsOutstanding pairs outstandingPairs)
    let _ ← economics.collateralForPairs remainingPairs
    let collateralReleased ← economics.collateralForPairs pairs
    return {
      oldState := state
      newState := .trading remainingPairs
      transition := .cancelled pairs collateralReleased (remainingPairs == 0) }
  | _ => .error (invalidState .cancel state)

def resolve (state : BinaryMarketState) (outcome : BinaryOutcome) :
    Except BinaryMarketError AppliedBinaryMarketTransition :=
  match state with
  | .trading outstandingPairs => do
      let collateralRetained ← economics.collateralForPairs outstandingPairs
      return {
        oldState := state
        newState :=
          match outcome with
          | .yes => .resolvedYes collateralRetained
          | .no => .resolvedNo collateralRetained
        transition := .resolved outcome collateralRetained }
  | _ => .error (invalidState .resolve state)

def expire (state : BinaryMarketState) : Except BinaryMarketError AppliedBinaryMarketTransition :=
  match state with
  | .trading outstandingPairs => do
      let collateralRetained ← economics.collateralForPairs outstandingPairs
      return {
        oldState := state
        newState := .expired collateralRetained
        transition := .expired collateralRetained }
  | _ => .error (invalidState .expire state)

def redemptionTerms (state : BinaryMarketState) (outcome : BinaryOutcome) :
    Except BinaryMarketError (ℕ × ℕ × (ℕ → BinaryMarketState)) :=
  match state with
  | .resolvedYes collateral => do
      requireWinner .yes outcome
      return (collateral, economics.collateralPerPair, .resolvedYes)
  | .resolvedNo collateral => do
      requireWinner .no outcome
      return (collateral, economics.collateralPerPair, .resolvedNo)
  | .expired collateral =>
    return (collateral, economics.basePayout, .expired)
  | .trading _ => .error (invalidState .redeem state)

def redeem (state : BinaryMarketState) (outcome : BinaryOutcome)
    (tokens : ℕ) : Except BinaryMarketError AppliedBinaryMarketTransition := do
  requireNonzero .redeem tokens
  let (collateral, unitPayout, withCollateral) ← economics.redemptionTerms state outcome
  let collateralReleased ← checkedPayout tokens unitPayout
  let remaining ← okOr (checkedSub collateral collateralReleased)
    (.redemptionExceedsCollateral collateralReleased collateral)
  return {
    oldState := state
    newState := withCollateral remaining
    transition := .redeemed outcome tokens collateralReleased (remaining == 0) }

/-- Apply one operation.  The state is validated first, as in the source. -/
def apply (state : BinaryMarketState) (action : BinaryMarketAction) :
    Except BinaryMarketError AppliedBinaryMarketTransition := do
  economics.validateState state
  match action with
  | .issue pairs => economics.issue state pairs
  | .cancel pairs => economics.cancel state pairs
  | .resolve outcome => economics.resolve state outcome
  | .expire => economics.expire state
  | .redeem outcome tokens => economics.redeem state outcome tokens

end BinaryMarketEconomics

end DeadcatNode
