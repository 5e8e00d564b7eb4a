import DeadcatNode.BinaryMarketEconomics

/-!
# Slots, paths and layouts of a binary market

A market keeps its value in covenant outputs with eight fixed roles, the slots.
A spend is coordinated by one input; which one, and which of the ten
transaction shapes the spend has, follows from the state and the operation.
-/

namespace DeadcatNode

open Checked

inductive BinaryMarketSlot where
  | dormantYesRt
  | dormantNoRt
  | unresolvedYesRt
  | unresolvedNoRt
  | unresolvedCollateral
  | resolvedYesCollateral
  | resolvedNoCollateral
  | expiredCollateral
deriving DecidableEq

def BinaryMarketSlot.all : List BinaryMarketSlot :=
  [.dormantYesRt, .dormantNoRt, .unresolvedYesRt, .unresolvedNoRt,
    .unresolvedCollateral, .resolvedYesCollateral, .resolvedNoCollateral, .expiredCollateral]

/-- Numeric tag committed by the storage layout and by the witness. -/
def BinaryMarketSlot.tag : BinaryMarketSlot → ℕ
  | .dormantYesRt => 0
  | .dormantNoRt => 1
  | .unresolvedYesRt => 2
  | .unresolvedNoRt => 3
  | .unresolvedCollateral => 4
  | .resolvedYesCollateral => 5
  | .resolvedNoCollateral => 6
  | .expiredCollateral => 7

theorem BinaryMarketSlot.tag_injective : Function.Injective BinaryMarketSlot.tag := by
  intro slot slot' htag
  cases slot <;> cases slot' <;> first | rfl | cases htag

inductive BinaryMarketPath where
  | initialIssuance
  | subsequentIssuance
  | partialCancellation
  | fullCancellation
  | activeResolution
  | dormantResolution
  | activeExpiry
  | dormantExpiry
  | resolvedRedemption
  | expiryRedemption
deriving DecidableEq

def BinaryMarketPath.tag : BinaryMarketPath → ℕ
  | .initialIssuance => 0
  | .subsequentIssuance => 1
  | .partialCancellation => 2
  | .fullCancellation => 3
  | .activeResolution => 4
  | .dormantResolution => 5
  | .activeExpiry => 6
  | .dormantExpiry => 7
  | .resolvedRedemption => 8
  | .expiryRedemption => 9

inductive BinaryMarketCoordinatorRole where
  | dormantYesRt
  | unresolvedYesRt
  | resolvedYesCollateral
  | resolvedNoCollateral
  | expiredCollateral
deriving DecidableEq

namespace BinaryMarketCoordinatorRole

def slot : BinaryMarketCoordinatorRole → BinaryMarketSlot
  | .dormantYesRt => .dormantYesRt
  | .unresolvedYesRt => .unresolvedYesRt
  | .resolvedYesCollateral => .resolvedYesCollateral
  | .resolvedNoCollateral => .resolvedNoCollateral
  | .expiredCollateral => .expiredCollateral

def forState : BinaryMarketState → BinaryMarketCoordinatorRole
  | .trading 0 => .dormantYesRt
  | .trading (_ + 1) => .unresolvedYesRt
  | .resolvedYes _ => .resolvedYesCollateral
  | .resolvedNo _ => .resolvedNoCollateral
  | .expired _ => .expiredCollateral

end BinaryMarketCoordinatorRole

inductive BinaryMarketInputRole where
  | dormantYesCoordinator
  | dormantNoFollower
  | unresolvedYesCoordinator
  | unresolvedNoFollower
  | unresolvedCollateralFollower
  | resolvedYesCoordinator
  | resolvedNoCoordinator
  | expiredCoordinator
deriving DecidableEq

def BinaryMarketInputRole.slot : BinaryMarketInputRole → BinaryMarketSlot
  | .dormantYesCoordinator => .dormantYesRt
  | .dormantNoFollower => .dormantNoRt
  | .unresolvedYesCoordinator => .unresolvedYesRt
  | .unresolvedNoFollower => .unresolvedNoRt
  | .unresolvedCollateralFollower => .unresolvedCollateral
  | .resolvedYesCoordinator => .resolvedYesCollateral
  | .resolvedNoCoordinator => .resolvedNoCollateral
  | .expiredCoordinator => .expiredCollateral

inductive BinaryMarketLayoutError where
  | followerCannotCoordinate (slot : BinaryMarketSlot)
  | missingCancellationShape
  | unexpectedCancellationShape (operation : BinaryMarketOperation)
  | invalidCoordinatorOperation (coordinator : BinaryMarketCoordinatorRole)
      (operation : BinaryMarketOperation)
deriving DecidableEq

def BinaryMarketCoordinatorRole.tryFrom :
    BinaryMarketSlot → Except BinaryMarketLayoutError BinaryMarketCoordinatorRole
  | .dormantYesRt => .ok .dormantYesRt
  | .unresolvedYesRt => .ok .unresolvedYesRt
  | .resolvedYesCollateral => .ok .resolvedYesCollateral
  | .resolvedNoCollateral => .ok .resolvedNoCollateral
  | .expiredCollateral => .ok .expiredCollateral
  | slot => .error (.followerCannotCoordinate slot)

/-- A transaction shape together with the input which coordinates it. -/
structure BinaryMarketLayout where
  path : BinaryMarketPath
  coordinator : BinaryMarketCoordinatorRole
deriving DecidableEq

namespace BinaryMarketLayout

/-- Whether a cancellation is full is read off the transaction beforehand; the
other operations must come without that bit. -/
def forOperation (coordinator : BinaryMarketCoordinatorRole)
    (operation : BinaryMarketOperation) (fullCancellation : Option Bool) :
    Except BinaryMarketLayoutError BinaryMarketLayout := do
  require (¬(operation = .cancel ∧ fullCancellation = none)) .missingCancellationShape
  require (¬(operation ≠ .cancel ∧ fullCancellation ≠ none))
    (.unexpectedCancellationShape operation)
  let path ← match coordinator, operation, fullCancellation with
    | .dormantYesRt, .issue, none => .ok .initialIssuance
    | .unresolvedYesRt, .issue, none => .ok .subsequentIssuance
    | .unresolvedYesRt, .cancel, some false => .ok .partialCancellation
    | .unresolvedYesRt, .cancel, some true => .ok .fullCancellation
    | .unresolvedYesRt, .resolve, none => .ok .activeResolution
    | .dormantYesRt, .resolve, none => .ok .dormantResolution
    | .unresolvedYesRt, .expire, none => .ok .activeExpiry
    | .dormantYesRt, .expire, none => .ok .dormantExpiry
    | .resolvedYesCollateral, .redeem, none
    | .resolvedNoCollateral, .redeem, none => .ok .resolvedRedemption
    | .expiredCollateral, .redeem, none => .ok .expiryRedemption
    | _, _, _ => .error (.invalidCoordinatorOperation coordinator operation)
  return ⟨path, coordinator⟩

/-- The covenant inputs of a spend, in the order they must have. -/
def inputRoles (layout : BinaryMarketLayout) : List BinaryMarketInputRole :=
  match layout.coordinator with
  | .dormantYesRt => [.dormantYesCoordinator, .dormantNoFollower]
  | .unresolvedYesRt =>
    [.unresolvedYesCoordinator, .unresolvedNoFollower, .unresolvedCollateralFollower]
  | .resolvedYesCollateral => [.resolvedYesCoordinator]
  | .resolvedNoCollateral => [.resolvedNoCoordinator]
  | .expiredCollateral => [.expiredCoordinator]

end BinaryMarketLayout

/-- Oracle data of a resolution. -/
structure BinaryMarketResolution where
  outcome : BinaryOutcome
  signature : ℕ
deriving DecidableEq

inductive BinaryMarketCoordinatorAction where
  | issue (outputBase : ℕ)
  | cancel (outputBase : ℕ)
  | resolve (outputBase : ℕ) (resolution : BinaryMarketResolution)
  | expire (outputBase : ℕ)
  | redeem (outputBase : ℕ)
deriving DecidableEq

namespace BinaryMarketCoordinatorAction

def operation : BinaryMarketCoordinatorAction → BinaryMarketOperation
  | .issue _ => .issue
  | .cancel _ => .cancel
  | .resolve _ _ => .resolve
  | .expire _ => .expire
  | .redeem _ => .redeem

def outputBase : BinaryMarketCoordinatorAction → ℕ
  | .issue outputBase => outputBase
  | .cancel outputBase => outputBase
  | .resolve outputBase _ => outputBase
  | .expire outputBase => outputBase
  | .redeem outputBase => outputBase

end BinaryMarketCoordinatorAction

end DeadcatNode
