import DeadcatNode.OrderedTable

/-!
# Elements transactions

Transactions as the contracts and the index read them.  Hashes, asset ids and
commitments are natural numbers; scripts and witness items are byte strings.
A confidential asset or value is its curve point, given by the parity of one
coordinate and the other coordinate.
-/

namespace DeadcatNode

abbrev Txid : Type := ℕ

abbrev BlockHash : Type := ℕ

abbrev AssetId : Type := ℕ

abbrev Bytes : Type := List UInt8

abbrev Script : Type := Bytes

structure OutPoint where
  txid : Txid
  vout : ℕ
deriving DecidableEq

/-- Outpoints are ordered as their fixed big-endian keys. -/
instance : LinearOrder OutPoint :=
  LinearOrder.lift' (fun outpoint => toLex (outpoint.txid, outpoint.vout)) (by
    rintro ⟨txid, vout⟩ ⟨txid', vout'⟩ heq
    have hpair := congrArg ofLex heq
    simp_all)

namespace Confidential

inductive Asset where
  | null
  | explicit (asset : AssetId)
  | confidential (odd : Bool) (x : ℕ)
deriving DecidableEq

inductive Value where
  | null
  | explicit (amount : ℕ)
  | confidential (odd : Bool) (x : ℕ)
deriving DecidableEq

inductive Nonce where
  | null
  | explicit (bytes : ℕ)
  | confidential (odd : Bool) (x : ℕ)
deriving DecidableEq

end Confidential

structure AssetIssuance where
  assetBlindingNonce : ℕ
  assetEntropy : ℕ
  amount : Confidential.Value
  inflationKeys : Confidential.Value
deriving DecidableEq

def AssetIssuance.none : AssetIssuance := ⟨0, 0, .null, .null⟩

structure TxIn where
  previousOutput : OutPoint
  isPegin : Bool := false
  scriptSig : Script := []
  sequence : ℕ := 0xffffffff
  assetIssuance : AssetIssuance := .none
  scriptWitness : List Bytes := []
deriving DecidableEq

def TxIn.hasIssuance (input : TxIn) : Bool :=
  input.assetIssuance.amount != .null || input.assetIssuance.inflationKeys != .null

structure TxOutWitness where
  surjectionProof : Option Bytes := none
  rangeproof : Option Bytes := none
deriving DecidableEq

structure TxOut where
  asset : Confidential.Asset
  value : Confidential.Value
  nonce : Confidential.Nonce := .null
  scriptPubkey : Script
  witness : TxOutWitness := {}
deriving DecidableEq

structure Transaction where
  version : ℕ := 2
  lockTime : ℕ := 0
  input : List TxIn
  output : List TxOut
deriving DecidableEq

structure ChainPosition where
  blockHeight : ℕ
  txIndex : ℕ
deriving DecidableEq

instance : LinearOrder ChainPosition :=
  LinearOrder.lift' (fun position => toLex (position.blockHeight, position.txIndex)) (by
      rintro ⟨height, index⟩ ⟨height', index'⟩ heq
      have hpair := congrArg ofLex heq
      simp_all)

theorem ChainPosition.lt_iff (p q : ChainPosition) :
    p < q ↔ p.blockHeight < q.blockHeight ∨ p.blockHeight = q.blockHeight ∧ p.txIndex < q.txIndex :=
  Prod.Lex.toLex_lt_toLex

theorem ChainPosition.le_iff (p q : ChainPosition) :
    p ≤ q ↔ p.blockHeight < q.blockHeight ∨ p.blockHeight = q.blockHeight ∧ p.txIndex ≤ q.txIndex :=
  Prod.Lex.toLex_le_toLex

structure ChainAnchor where
  height : ℕ
  hash : BlockHash
deriving DecidableEq

structure RecoveryHintLocation where
  position : ChainPosition
  outputIndex : ℕ
deriving DecidableEq

instance : LinearOrder RecoveryHintLocation :=
  LinearOrder.lift' (fun location => toLex (location.position, location.outputIndex)) (by
      rintro ⟨position, index⟩ ⟨position', index'⟩ heq
      have hpair := congrArg ofLex heq
      simp_all)

end DeadcatNode
