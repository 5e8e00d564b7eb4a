import DeadcatNode.ElementsTransaction
import DeadcatNode.BinaryMarketLayout

/-!
# Finalized Simplicity spends

The witness stack of a Simplicity script-path spend has four items, the
serialized witness, the program, its commitment root and the control block, and
at most an annex.  The annex is accepted only if it is exactly the padding
which the cost of the program calls for.
-/

namespace DeadcatNode

open Checked

/-- A witness value of a decoded program, identified by its type. -/
inductive WitnessValue where
  | slot (tag : ℕ)
  | action (action : BinaryMarketCoordinatorAction)
  | other
deriving DecidableEq

/-- A decoded redeem node: its commitment root, its witness values in
post-order and its cost bound. -/
structure RedeemNode where
  cmr : Bytes
  values : List WitnessValue
  cost : ℕ
deriving DecidableEq

/-- The Simplicity library: decoding, control blocks and budget rules. -/
structure SimplicityCodec where
  decode : Bytes → Bytes → Option RedeemNode
  controlBlock : Bytes → Option Bytes
  padding : ℕ → List Bytes → Option Bytes
  isBudgetValid : ℕ → List Bytes → Bool

inductive FinalizedSimplicitySpendError where
  | coreStackShape (len : ℕ)
  | witnessStackShape (len : ℕ)
  | invalidAnnex
  | cmrLength (len : ℕ)
  | decode
  | cmrMismatch
  | invalidControlBlock
  | nonCanonicalAnnex (expectedLen actualLen : Option ℕ)
  | insufficientBudget
deriving DecidableEq

structure FinalizedSimplicitySpend where
  witnessStack : List Bytes
  redeemNode : RedeemNode
  cmr : Bytes
  controlBlock : Bytes
deriving DecidableEq

def coreStackItems : ℕ := 4

def taprootAnnexTag : UInt8 := 0x50

def validateWitnessShape (witnessStack : List Bytes) : Except FinalizedSimplicitySpendError Unit :=
  match witnessStack with
  | [_, _, _, _] => .ok ()
  | [_, _, _, _, annex] =>
    require (annex.head? = some taprootAnnexTag) .invalidAnnex
  | _ => .error (.witnessStackShape witnessStack.length)

def decodeCoreStack (codec : SimplicityCodec) (coreStack : List Bytes) :
    Except FinalizedSimplicitySpendError (RedeemNode × Bytes × Bytes) :=
  match coreStack with
  | [witness, program, cmr, control] => do
      require (cmr.length = 32) (.cmrLength cmr.length)
      let controlBlock ← okOr (codec.controlBlock control) .invalidControlBlock
      let redeemNode ← okOr (codec.decode program witness) .decode
      require (redeemNode.cmr = cmr) .cmrMismatch
      return (redeemNode, cmr, controlBlock)
  | _ => .error (.coreStackShape coreStack.length)

namespace FinalizedSimplicitySpend

def fromDecoded (codec : SimplicityCodec) (witnessStack : List Bytes)
    (redeemNode : RedeemNode) (cmr controlBlock : Bytes) :
    Except FinalizedSimplicitySpendError FinalizedSimplicitySpend := do
  validateWitnessShape witnessStack
  let coreStack := witnessStack.take coreStackItems
  let expectedAnnex := codec.padding redeemNode.cost coreStack
  let actualAnnex := witnessStack[coreStackItems]?
  require (expectedAnnex = actualAnnex)
    (.nonCanonicalAnnex (expectedAnnex.map List.length) (actualAnnex.map List.length))
  require (codec.isBudgetValid redeemNode.cost witnessStack = true) .insufficientBudget
  return ⟨witnessStack, redeemNode, cmr, controlBlock⟩

def fromWitnessStack (codec : SimplicityCodec) (witnessStack : List Bytes) :
    Except FinalizedSimplicitySpendError FinalizedSimplicitySpend := do
  validateWitnessShape witnessStack
  let (redeemNode, cmr, controlBlock) ← decodeCoreStack codec (witnessStack.take coreStackItems)
  fromDecoded codec witnessStack redeemNode cmr controlBlock

end FinalizedSimplicitySpend

end DeadcatNode
