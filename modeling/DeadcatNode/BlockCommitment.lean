import DeadcatNode.SyncCoordinator

/-!
# Transaction lists are bound by the merkle root

An odd node of a layer is paired with itself, so different lists can have the
same root.  All such lists repeat a transaction id, and the check of a complete
block refuses them.
-/

namespace DeadcatNode

open Checked

namespace BlockHashing

variable {blockHashing : BlockHashing} {layer : List Txid} {height : ℕ}

theorem exists_of_mem_merkleLayer {node : Txid} (hnode : node ∈ blockHashing.merkleLayer layer) :
    ∃ left ∈ layer, ∃ right ∈ layer, node = blockHashing.merkleNode left right := by
  induction layer using merkleLayer.induct with
  | case1 left right rest ih =>
    rcases List.mem_cons.mp hnode with rfl | hrest
    · exact ⟨left, by simp, right, by simp, rfl⟩
    · obtain ⟨l, hl, r, hr, rfl⟩ := ih hrest
      exact ⟨l, by simp [hl], r, by simp [hr], rfl⟩
  | case2 left =>
    rw [List.mem_singleton.mp hnode]
    exact ⟨left, by simp, left, by simp, rfl⟩
  | case3 => cases hnode

/-! ## Layers without repetitions -/

section

variable (hinjective : Function.Injective2 blockHashing.merkleNode)
include hinjective

theorem nodup_merkleLayer (hnodup : layer.Nodup) : (blockHashing.merkleLayer layer).Nodup := by
  induction layer using merkleLayer.induct with
  | case1 left right rest ih =>
    simp only [List.nodup_cons, List.mem_cons, not_or] at hnodup
    obtain ⟨⟨-, hleft⟩, -, hrest⟩ := hnodup
    refine List.nodup_cons.mpr ⟨?_, ih hrest⟩
    intro hmem
    obtain ⟨l, hl, r, -, heq⟩ := exists_of_mem_merkleLayer hmem
    exact hleft ((hinjective heq).1 ▸ hl)
  | case2 left => exact List.nodup_singleton _
  | case3 => exact List.nodup_nil

/-- Padding hides a node only when the node is repeated. -/
theorem merkleLayer_injective {layer' : List Txid} (hnodup : layer.Nodup) (hnodup' : layer'.Nodup)
    (heq : blockHashing.merkleLayer layer = blockHashing.merkleLayer layer') : layer = layer' := by
  induction layer using merkleLayer.induct generalizing layer' with
  | case1 left right rest ih =>
    rcases layer' with _ | ⟨left', _ | ⟨right', rest'⟩⟩
    · cases heq
    · obtain ⟨hleft, hright⟩ := hinjective (List.cons.inj heq).1
      exact absurd (hleft.trans hright.symm) (by simp_all)
    · obtain ⟨hnode, hrest⟩ := List.cons.inj heq
      obtain ⟨rfl, rfl⟩ := hinjective hnode
      have htails : rest = rest' := ih (hnodup.of_cons).of_cons (hnodup'.of_cons).of_cons hrest
      rw [htails]
  | case2 left =>
    rcases layer' with _ | ⟨left', _ | ⟨right', rest'⟩⟩
    · cases heq
    · rw [(hinjective (List.cons.inj heq).1).1]
    · obtain ⟨hleft, hright⟩ := hinjective (List.cons.inj heq).1
      exact absurd (hleft.symm.trans hright) (by simp_all)
  | case3 =>
    rcases layer' with _ | ⟨_, _ | ⟨_, _⟩⟩
    · rfl
    · cases heq
    · cases heq

end

/-! ## Levels of a tree -/

variable (blockHashing) in
/-- Nodes at a height above the leaves, in the trees over all transactions. -/
def MerkleLevel (hashing : Hashing) : ℕ → Txid → Prop
  | 0, node => ∃ transaction, hashing.txid transaction = node
  | height + 1, node => ∃ left right, MerkleLevel hashing height left ∧
      MerkleLevel hashing height right ∧ blockHashing.merkleNode left right = node

variable (blockHashing) in
def InnerNode (hashing : Hashing) (node : Txid) : Prop :=
  ∃ height, blockHashing.MerkleLevel hashing (height + 1) node

variable (blockHashing) in
/-- A layer of a tree, without repetitions. -/
structure TreeLayer (hashing : Hashing) (height : ℕ) (layer : List Txid) : Prop where
  level : ∀ node ∈ layer, blockHashing.MerkleLevel hashing height node
  nodup : layer.Nodup
  nonempty : layer ≠ []

section

variable {hashing : Hashing} (hinjective : Function.Injective2 blockHashing.merkleNode)
  (hleaf : ∀ transaction, ¬blockHashing.InnerNode hashing (hashing.txid transaction))

include hinjective hleaf in
theorem MerkleLevel.unique {height' : ℕ} {node : Txid}
    (hlevel : blockHashing.MerkleLevel hashing height node)
    (hlevel' : blockHashing.MerkleLevel hashing height' node) : height = height' := by
  induction height generalizing height' node with
  | zero =>
    cases height' with
    | zero => rfl
    | succ height' =>
      obtain ⟨transaction, rfl⟩ := hlevel
      exact absurd ⟨height', hlevel'⟩ (hleaf transaction)
  | succ height ih =>
    cases height' with
    | zero =>
      obtain ⟨transaction, rfl⟩ := hlevel'
      exact absurd ⟨height, hlevel⟩ (hleaf transaction)
    | succ height' =>
      obtain ⟨left, right, hleft, -, rfl⟩ := hlevel
      obtain ⟨left', right', hleft', -, heq⟩ := hlevel'
      rw [(hinjective heq).1] at hleft'
      rw [ih hleft hleft']

theorem merkleLevel_merkleLayer
    (hlayer : ∀ node ∈ layer, blockHashing.MerkleLevel hashing height node) :
    ∀ node ∈ blockHashing.merkleLayer layer,
      blockHashing.MerkleLevel hashing (height + 1) node := by
  intro node hnode
  obtain ⟨left, hleft, right, hright, rfl⟩ := exists_of_mem_merkleLayer hnode
  exact ⟨left, right, hlayer left hleft, hlayer right hright, rfl⟩

theorem merkleLevel_reduceLayer {rounds : ℕ}
    (hlayer : ∀ node ∈ layer, blockHashing.MerkleLevel hashing height node) :
    ∃ height', height ≤ height' ∧ ∀ node ∈ blockHashing.reduceLayer rounds layer,
        blockHashing.MerkleLevel hashing height' node := by
  induction rounds generalizing height layer with
  | zero => exact ⟨height, le_rfl, hlayer⟩
  | succ rounds ih =>
    unfold reduceLayer
    split
    · obtain ⟨height', hle, hnodes⟩ := ih (merkleLevel_merkleLayer hlayer)
      exact ⟨height', by omega, hnodes⟩
    · exact ⟨height, le_rfl, hlayer⟩

theorem TreeLayer.singleton_or_long (hlayer : blockHashing.TreeLayer hashing height layer) :
    (∃ node, layer = [node]) ∨ 1 < layer.length := by
  match layer, hlayer.nonempty with
  | [node], _ => exact .inl ⟨node, rfl⟩
  | _ :: _ :: _, _ => exact .inr (by simp)

include hinjective in
theorem TreeLayer.next (hlayer : blockHashing.TreeLayer hashing height layer) :
    blockHashing.TreeLayer hashing (height + 1) (blockHashing.merkleLayer layer) where
  level := merkleLevel_merkleLayer hlayer.level
  nodup := nodup_merkleLayer hinjective hlayer.nodup
  nonempty := by
    have hpos := List.length_pos_iff.mpr hlayer.nonempty
    rw [← List.length_pos_iff, length_merkleLayer]
    omega

include hinjective hleaf

theorem root_not_mem_reduceLayer {rounds : ℕ} {node : Txid}
    (hnode : blockHashing.MerkleLevel hashing height node)
    (hlayer : ∀ node ∈ layer, blockHashing.MerkleLevel hashing height node)
    (hlong : 1 < layer.length) : node ∉ blockHashing.reduceLayer (rounds + 1) layer := by
  intro hmem
  rw [reduceLayer, if_pos hlong] at hmem
  obtain ⟨height', hle, hnodes⟩ := merkleLevel_reduceLayer (merkleLevel_merkleLayer hlayer)
  have hsame := MerkleLevel.unique hinjective hleaf hnode (hnodes node hmem)
  omega

/-- The root determines a layer without repetitions. -/
theorem reduceLayer_injective {rounds rounds' : ℕ} {layer' : List Txid}
    (hlayer : blockHashing.TreeLayer hashing height layer)
    (hlayer' : blockHashing.TreeLayer hashing height layer')
    (hrounds : layer.length ≤ rounds) (hrounds' : layer'.length ≤ rounds') {root : Txid}
    (hroot : root ∈ blockHashing.reduceLayer rounds layer)
    (hroot' : root ∈ blockHashing.reduceLayer rounds' layer') : layer = layer' := by
  -- Both trees are taken down together, one layer a round.
  induction rounds generalizing height rounds' layer layer' with
  | zero =>
    exact absurd (List.length_eq_zero_iff.mp (Nat.le_zero.mp hrounds)) hlayer.nonempty
  | succ rounds ih =>
    cases rounds' with
    | zero =>
      exact absurd (List.length_eq_zero_iff.mp (Nat.le_zero.mp hrounds')) hlayer'.nonempty
    | succ rounds' =>
      rcases hlayer.singleton_or_long with ⟨node, rfl⟩ | hlong
      · have hnode : root = node := by simpa [reduceLayer] using hroot
        subst hnode
        have hlevel := hlayer.level root (by simp)
        rcases hlayer'.singleton_or_long with ⟨node', rfl⟩ | hlong'
        · have hnode' : root = node' := by simpa [reduceLayer] using hroot'
          rw [hnode']
        · exact absurd hroot' (root_not_mem_reduceLayer hinjective hleaf
            hlevel hlayer'.level hlong')
      · rcases hlayer'.singleton_or_long with ⟨node', rfl⟩ | hlong'
        · have hnode' : root = node' := by simpa [reduceLayer] using hroot'
          subst hnode'
          exact absurd hroot (root_not_mem_reduceLayer hinjective hleaf
            (hlayer'.level root (by simp)) hlayer.level hlong)
        · rw [reduceLayer, if_pos hlong] at hroot
          rw [reduceLayer, if_pos hlong'] at hroot'
          have hnext := ih (hlayer.next hinjective) (hlayer'.next hinjective)
            (by rw [length_merkleLayer]; omega) (by rw [length_merkleLayer]; omega) hroot hroot'
          exact merkleLayer_injective hinjective hlayer.nodup hlayer'.nodup hnext

end

/-! ## Complete blocks -/

theorem validateCompleteBlock_eq_ok {hashing : Hashing} {block : Block}
    {hash : BlockHash} {prev : Option BlockHash}
    (hvalid : blockHashing.validateCompleteBlock hashing block height hash prev = .ok ()) :
    blockHashing.TreeLayer hashing 0 (block.txdata.map hashing.txid) ∧
      blockHashing.transactionMerkleRoot hashing block.txdata = some block.header.merkleRoot := by
  simp only [validateCompleteBlock, bind_eq_ok, require_eq_ok] at hvalid
  obtain ⟨-, -, -, -, -, -, -, hnonempty, -, hnodup, hroot⟩ := hvalid
  refine ⟨⟨?_, hnodup, ?_⟩, hroot⟩
  · intro node hnode
    obtain ⟨transaction, -, rfl⟩ := List.mem_map.mp hnode
    exact ⟨transaction, rfl⟩
  · simpa using hnonempty

/-- Two complete blocks with one header have the same transactions in the same
order. -/
theorem complete_blocks_same_txids {hashing : Hashing}
    (hinjective : Function.Injective2 blockHashing.merkleNode)
    (hleaf : ∀ transaction, ¬blockHashing.InnerNode hashing (hashing.txid transaction))
    {block block' : Block} (hheader : block.header = block'.header)
    {height height' : ℕ} {hash hash' : BlockHash} {prev prev' : Option BlockHash}
    (hvalid : blockHashing.validateCompleteBlock hashing block height hash prev = .ok ())
    (hvalid' : blockHashing.validateCompleteBlock hashing block' height' hash' prev' = .ok ()) :
    block.txdata.map hashing.txid = block'.txdata.map hashing.txid := by
  obtain ⟨hlayer, hroot⟩ := validateCompleteBlock_eq_ok hvalid
  obtain ⟨hlayer', hroot'⟩ := validateCompleteBlock_eq_ok hvalid'
  rw [← hheader] at hroot'
  exact reduceLayer_injective hinjective hleaf hlayer hlayer'
    (by rw [List.length_map]) (by rw [List.length_map])
    (List.mem_of_head? hroot) (List.mem_of_head? hroot')

/-! ## Two blocks with one header -/

/-- Leaves are even and inner nodes are odd. -/
def parityHashing : Hashing where
  txid transaction := 2 * transaction.lockTime
  scriptHash _ := 0
  digest _ := 0

def parityBlockHashing : BlockHashing where
  blockHash header := header.height
  merkleNode left right := 2 * Nat.pair left right + 1

def threeTransactions (version : ℕ) : Block where
  header := {
    height := 7
    prevBlockhash := 6
    merkleRoot :=
      let node := parityBlockHashing.merkleNode
      node (node 2 4) (node 6 6) }
  txdata := [1, 2, 3].map fun lockTime => ⟨version, lockTime, [], []⟩

theorem parityBlockHashing_injective : Function.Injective2 parityBlockHashing.merkleNode := by
  intro left left' right right' heq
  have hnodes : 2 * Nat.pair left right + 1 = 2 * Nat.pair left' right' + 1 := heq
  have hpair : Nat.pair left right = Nat.pair left' right' := by omega
  exact Nat.pair_eq_pair.mp hpair

theorem parityHashing_leaf (transaction : Transaction) :
    ¬parityBlockHashing.InnerNode parityHashing (parityHashing.txid transaction) := by
  rintro ⟨height, left, right, -, -, heq⟩
  have hparity : 2 * Nat.pair left right + 1 = 2 * transaction.lockTime := heq
  omega

/-- Blocks with the header of three transactions, the last of them paired with
itself. -/
theorem complete_blocks_same_txids_threeTransactions :
    (threeTransactions 2).txdata.map parityHashing.txid =
      (threeTransactions 3).txdata.map parityHashing.txid := by
  have hvalid : parityBlockHashing.validateCompleteBlock parityHashing
      (threeTransactions 2) 7 7 (some 6) = .ok () := by
    decide +kernel
  have hvalid' : parityBlockHashing.validateCompleteBlock parityHashing
      (threeTransactions 3) 7 7 none = .ok () := by
    decide +kernel
  exact complete_blocks_same_txids parityBlockHashing_injective
    parityHashing_leaf rfl hvalid hvalid'

end BlockHashing

end DeadcatNode
