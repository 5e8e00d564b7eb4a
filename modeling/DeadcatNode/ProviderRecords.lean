import DeadcatNode.CheckedExecution
import DeadcatNode.ElementsTransaction

/-!
# Records of an RFQ provider

Identifiers, inventory and wallet snapshots of a quote provider.  Digests,
locators and keys are natural numbers; the key material of an inventory output
is the one a wallet serialized, so it always decodes.
-/

namespace DeadcatNode

open Checked

abbrev ProviderId : Type := ℕ

abbrev OwnerId : Type := ℕ

abbrev IdempotencyKey : Type := ℕ

abbrev ReservationId : Type := ℕ

abbrev QuoteCommitment : Type := ℕ

abbrev QuoteRequestDigest : Type := ℕ

abbrev SigningCommitment : Type := ℕ

abbrev SignedArtifactDigest : Type := ℕ

abbrev InventoryBinding : Type := ℕ

abbrev InventorySnapshotCommitment : Type := ℕ

abbrev WalletKeyLocator : Type := ℕ

abbrev XOnlyPublicKey : Type := ℕ

abbrev UnixMillis : Type := ℕ

/-- Maximum number of provider inventory inputs one reservation may claim. -/
def maxReservationInputs : ℕ := 64

structure ProviderIdentity where
  provider : ProviderId
  genesisHash : BlockHash
  policyAsset : AssetId
deriving DecidableEq

def OutPoint.isNull (outpoint : OutPoint) : Prop :=
  outpoint.txid = 0 ∧ outpoint.vout = 0xffffffff

def OutPoint.Spendable (outpoint : OutPoint) : Prop :=
  ¬(outpoint.isNull ∨ outpoint.vout &&& 0xc0000000 ≠ 0)

instance (outpoint : OutPoint) : Decidable outpoint.isNull := by
  unfold OutPoint.isNull
  infer_instance

instance (outpoint : OutPoint) : Decidable outpoint.Spendable := by
  unfold OutPoint.Spendable
  infer_instance

/-! ## Inventory -/

/-- Provider-owned spendable output metadata as it is persisted. -/
structure StoredInventoryItem where
  outpoint : OutPoint
  asset : AssetId
  amount : ℕ
  walletLocator : WalletKeyLocator
  internalKey : XOnlyPublicKey
  binding : InventoryBinding
deriving DecidableEq

def StoredInventoryItem.Valid (item : StoredInventoryItem) : Prop :=
  item.walletLocator ≠ 0 ∧ item.outpoint.Spendable ∧ item.amount ≠ 0

instance (item : StoredInventoryItem) : Decidable item.Valid := by
  unfold StoredInventoryItem.Valid
  infer_instance

/-- An inventory item of the domain is one which passed its constructor. -/
abbrev InventoryItem : Type := { item : StoredInventoryItem // item.Valid }

structure WalletOwnedOutput where
  txout : TxOut
  item : InventoryItem
deriving DecidableEq

namespace WalletOwnedOutput

def outpoint (output : WalletOwnedOutput) : OutPoint := output.item.val.outpoint

def asset (output : WalletOwnedOutput) : AssetId := output.item.val.asset

def amount (output : WalletOwnedOutput) : ℕ := output.item.val.amount

def binding (output : WalletOwnedOutput) : InventoryBinding :=
  output.item.val.binding

theorem amount_pos (output : WalletOwnedOutput) : 0 < output.amount :=
  Nat.pos_of_ne_zero output.item.property.2.2

end WalletOwnedOutput

/-! ## Fees -/

inductive FeeSizeMetric where
  | regularVbytes
  | discountVbytes
deriving DecidableEq

inductive FeePolicyViolation where
  | wrongPolicyAsset (expected actual : AssetId)
  | transactionOverweight (maximum actual : ℕ)
  | requiredFeeOverflow
  | feeBelowMinimum (required actual : ℕ)
deriving DecidableEq

structure StoredTransactionFee where
  policyAsset : AssetId
  amount : ℕ
  weight : ℕ
  regularVsize : ℕ
  discountVsize : ℕ
deriving DecidableEq

def StoredTransactionFee.Valid (fee : StoredTransactionFee) : Prop :=
  ¬(fee.weight = 0 ∨ fee.regularVsize = 0 ∨ fee.discountVsize = 0) ∧
    ¬(fee.regularVsize ≠ fee.weight / 4 + (if fee.weight % 4 = 0 then 0 else 1) ∨
      fee.regularVsize < fee.discountVsize)

instance (fee : StoredTransactionFee) : Decidable fee.Valid := by
  unfold StoredTransactionFee.Valid
  infer_instance

abbrev TransactionFee : Type :=
  { fee : StoredTransactionFee // fee.Valid }

/-- Immutable fee and resource floor attached to a firm reservation. -/
structure StoredFeePolicy where
  policyAsset : AssetId
  minimumSatsPerKvb : ℕ
  minimumAbsoluteFee : ℕ
  maximumTransactionWeight : ℕ
  sizeMetric : FeeSizeMetric
deriving DecidableEq

def StoredFeePolicy.Valid (policy : StoredFeePolicy) : Prop :=
  policy.minimumSatsPerKvb ≠ 0 ∧ policy.maximumTransactionWeight ≠ 0

instance (policy : StoredFeePolicy) : Decidable policy.Valid := by
  unfold StoredFeePolicy.Valid
  infer_instance

abbrev FeePolicy : Type := { policy : StoredFeePolicy // policy.Valid }

namespace StoredFeePolicy

def policyVsize (policy : StoredFeePolicy) (fee : StoredTransactionFee) : ℕ :=
  match policy.sizeMetric with
  | .regularVbytes => fee.regularVsize
  | .discountVbytes => fee.discountVsize

def requiredFee (policy : StoredFeePolicy) (fee : StoredTransactionFee) :
    Except FeePolicyViolation ℕ := do
  require (fee.policyAsset = policy.policyAsset)
    (.wrongPolicyAsset policy.policyAsset fee.policyAsset)
  require (fee.weight ≤ policy.maximumTransactionWeight)
    (.transactionOverweight policy.maximumTransactionWeight fee.weight)
  let numerator ← okOr (checkedMul 128 policy.minimumSatsPerKvb (policy.policyVsize fee))
    .requiredFeeOverflow
  let rounded ← okOr (checkedAdd 128 numerator 999) .requiredFeeOverflow
  let rateFee := rounded / 1000
  require (rateFee < 2 ^ 64) .requiredFeeOverflow
  return max policy.minimumAbsoluteFee rateFee

def validate (policy : StoredFeePolicy) (fee : StoredTransactionFee) :
    Except FeePolicyViolation Unit := do
  let required ← policy.requiredFee fee
  require (required ≤ fee.amount) (.feeBelowMinimum required fee.amount)

end StoredFeePolicy

/-! ## Wallet snapshots -/

structure WalletScanAnchor where
  blockHash : BlockHash
  height : ℕ
deriving DecidableEq

/-- In-process proof that an eligible view came from the latest published
scan. -/
structure EligibilityToken where
  generation : ℕ
  snapshot : InventorySnapshotCommitment
  observedAt : UnixMillis
deriving DecidableEq

/-- Outputs in the order of their outpoints, without duplicates. -/
def Sorted (outputs : List WalletOwnedOutput) : Prop :=
  outputs.Pairwise fun output next => output.outpoint < next.outpoint

/-- The only inventory view suitable for quote construction.  Its outputs are
part of a snapshot, which is sorted and free of duplicates. -/
structure EligibleInventory where
  token : EligibilityToken
  anchor : WalletScanAnchor
  allocationRevision : ℕ
  eligibleCommitment : ℕ
  outputs : List WalletOwnedOutput
  sorted : Sorted outputs

end DeadcatNode
