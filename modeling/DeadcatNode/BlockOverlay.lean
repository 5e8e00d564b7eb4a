import DeadcatNode.InterpretedBatch

/-!
# Lookups through the overlay of a block

Inside a block the interpreter reads owners, records and outputs through the
transactions found earlier in the block.  These lookups agree with a store when
they return what the store holds; an interpretation is then the same as one
against that store without any overlay.
-/

namespace DeadcatNode

open Checked

/-! ## Records up to their sync state -/

section Normalized

variable (record : ContractRecord) (asOf : ChainAnchor)

@[simp] theorem normalizeReadyAnchor_twice (other : ChainAnchor) :
    normalizeReadyAnchor (normalizeReadyAnchor record other) asOf =
      normalizeReadyAnchor record asOf := by
  cases hsync : record.syncState <;> simp [normalizeReadyAnchor, hsync]

theorem normalizeReadyAnchor_eq :
    ∃ syncState, normalizeReadyAnchor record asOf = { record with syncState } := by
  unfold normalizeReadyAnchor
  split
  · exact ⟨_, rfl⟩
  · exact ⟨record.syncState, rfl⟩

end Normalized

theorem exists_syncState_of_normalized {record other : ContractRecord} {asOf : ChainAnchor}
    (hsame : normalizeReadyAnchor record asOf = normalizeReadyAnchor other asOf) :
    ∃ syncState, record = { other with syncState } := by
  obtain ⟨state, hrecord⟩ := normalizeReadyAnchor_eq record asOf
  obtain ⟨state', hother⟩ := normalizeReadyAnchor_eq other asOf
  refine ⟨record.syncState, ?_⟩
  rw [hrecord, hother] at hsame
  obtain ⟨_, _, _, _, _, _, _, _, _⟩ := record
  obtain ⟨_, _, _, _, _, _, _, _, _⟩ := other
  simp only [ContractRecord.mk.injEq] at hsame ⊢
  obtain ⟨hid, hkind, hparams, hposition, hstate, -, hscripts, hassets, houtpoints⟩ := hsame
  exact ⟨hid, hkind, hparams, hposition, hstate, trivial, hscripts, hassets, houtpoints⟩

/-! ## Agreement -/

def InterpretationContext.against (context : InterpretationContext)
    (store : Store) : InterpretationContext :=
  { context with
    store
    priorTransactions := [] }

/-- The overlay returns what a store holds.  Ready contracts are brought to the
anchor of the block before they are compared. -/
structure InterpretationContext.Agrees (context : InterpretationContext)
    (store : Store) : Prop where
  owners : ∀ outpoint owner,
    ownerInContext context outpoint = .live owner ↔ store.outpointOwner outpoint = some owner
  contracts : ∀ c, ∃ current, contractInContext context c = .ok current ∧
    current.map (normalizeReadyAnchor · context.anchor) =
      (store.contract c).map (normalizeReadyAnchor · context.anchor)
  outputs : ∀ tracked, materializeOutput context tracked =
    materializeOutput (context.against store) tracked

section Congruence

variable {crypto : MarketCrypto} {codec : SimplicityCodec}
  {interpreter : DeadcatInterpreter} {context : InterpretationContext}
  {store : Store} {transaction : Transaction}

theorem contractInContext_against (c : ContractId) :
    contractInContext (context.against store) c = .ok (store.contract c) := rfl

theorem ownerInContext_against (outpoint : OutPoint) :
    ownerInContext (context.against store) outpoint =
      match store.outpointOwner outpoint with
      | some owner => .live owner
      | none => .untracked := rfl

namespace InterpretationContext.Agrees

theorem contract_cases (hagrees : context.Agrees store) (c : ContractId) :
    (contractInContext context c = .ok none ∧ store.contract c = none) ∨
      ∃ record syncState, store.contract c = some record ∧
        contractInContext context c = .ok (some { record with syncState }) := by
  obtain ⟨current, hcurrent, hsame⟩ := hagrees.contracts c
  cases hstored : store.contract c with
  | none =>
    rw [hstored] at hsame
    simp only [Option.map_none, Option.map_eq_none_iff] at hsame
    exact .inl ⟨hsame ▸ hcurrent, rfl⟩
  | some record =>
    rw [hstored, Option.map_some, Option.map_eq_some_iff] at hsame
    obtain ⟨other, rfl, hother⟩ := hsame
    obtain ⟨syncState, rfl⟩ := exists_syncState_of_normalized hother
    exact .inr ⟨record, syncState, rfl, hcurrent⟩

theorem materializeMarketOutputs_eq (hagrees : context.Agrees store)
    (record : ContractRecord) (syncState : ContractSyncState) :
    materializeMarketOutputs context { record with syncState } =
      materializeMarketOutputs (context.against store) record := by
  have hrole : materializeRole context record.contractId =
      materializeRole (context.against store) record.contractId := by
    funext live tracked
    simp only [materializeRole, hagrees.outputs]
  simp only [materializeMarketOutputs, hrole]

theorem interpretContract_eq (hagrees : context.Agrees store)
    (record : ContractRecord) (syncState : ContractSyncState) :
    interpretContract crypto codec context { record with syncState }
        transaction = interpretContract crypto codec (context.against store) record
        transaction := by
  simp only [interpretContract, hagrees.materializeMarketOutputs_eq, ensureCompleteSpend]

theorem interpretTouched_eq (hagrees : context.Agrees store) :
    interpretTouched crypto codec context transaction =
      interpretTouched crypto codec (context.against store) transaction := by
  funext c
  simp only [interpretTouched, contractInContext_against, ok_bind]
  rcases hagrees.contract_cases c with
    ⟨hoverlay, hstored⟩ | ⟨record, syncState, hstored, hoverlay⟩
  · rw [hoverlay, hstored]
    rfl
  · rw [hoverlay, hstored]
    exact hagrees.interpretContract_eq record syncState

theorem retainCanonicalCreation_eq (hagrees : context.Agrees store) :
    retainCanonicalCreation context = retainCanonicalCreation (context.against store) := by
  funext created candidate
  unfold retainCanonicalCreation
  split
  · rfl
  · rw [contractInContext_against]
    rcases hagrees.contract_cases candidate.contractId with
      ⟨hoverlay, hstored⟩ | ⟨record, syncState, hstored, hoverlay⟩
    · rw [hoverlay, hstored]
    · rw [hoverlay, hstored]
      rfl

theorem discover_eq (hagrees : context.Agrees store) :
    DeadcatInterpreter.discover crypto interpreter context transaction =
      DeadcatInterpreter.discover crypto interpreter (context.against store)
        transaction := by
  have hcandidate : DeadcatInterpreter.verifyCandidate crypto interpreter context
      transaction = DeadcatInterpreter.verifyCandidate crypto interpreter
        (context.against store) transaction := rfl
  have hretained : DeadcatInterpreter.discoverRetained crypto interpreter context
      transaction = DeadcatInterpreter.discoverRetained crypto interpreter
        (context.against store) transaction := by
    funext created declaration
    simp only [DeadcatInterpreter.discoverRetained, hcandidate, hagrees.retainCanonicalCreation_eq]
  have hhinted : DeadcatInterpreter.discoverHinted crypto interpreter context
      transaction = DeadcatInterpreter.discoverHinted crypto interpreter
        (context.against store) transaction := by
    funext created hints
    simp only [DeadcatInterpreter.discoverHinted, hcandidate, hagrees.retainCanonicalCreation_eq]
  simp only [DeadcatInterpreter.discover, hretained, hhinted]
  rfl

theorem touchOwners_eq (hagrees : context.Agrees store) (inputs : List TxIn)
    (hunspent : ∀ input ∈ inputs, ∀ c,
      ownerInContext context input.previousOutput ≠ .spentEarlier c)
    (touched : List ContractId) :
    inputs.foldlM (touchOwner context) touched =
      inputs.foldlM (touchOwner (context.against store)) touched := by
  induction inputs generalizing touched with
  | nil => rfl
  | cons input rest ih =>
    have hfirst : touchOwner context touched input =
        touchOwner (context.against store) touched input := by
      unfold touchOwner
      rw [ownerInContext_against]
      cases howner : ownerInContext context input.previousOutput with
      | live owner => rw [(hagrees.owners _ owner).mp howner]; rfl
      | spentEarlier c =>
        exact absurd howner (hunspent input List.mem_cons_self c)
      | untracked =>
        cases hstored : store.outpointOwner input.previousOutput with
        | none => rfl
        | some owner =>
          rw [(hagrees.owners _ owner).mpr hstored] at howner
          cases howner
    rw [List.foldlM_cons, List.foldlM_cons, hfirst]
    congr 1
    funext mid
    exact ih (fun other hother => hunspent other (List.mem_cons_of_mem _ hother)) mid

theorem interpretTransaction_eq (hagrees : context.Agrees store)
    (hunspent : ∀ input ∈ transaction.input, ∀ c,
      ownerInContext context input.previousOutput ≠ .spentEarlier c) :
    DeadcatInterpreter.interpretTransaction crypto codec interpreter context transaction =
      DeadcatInterpreter.interpretTransaction crypto codec interpreter
        (context.against store) transaction := by
  simp only [DeadcatInterpreter.interpretTransaction, hagrees.discover_eq,
    hagrees.touchOwners_eq transaction.input hunspent, hagrees.interpretTouched_eq]
  rfl

end InterpretationContext.Agrees

end Congruence

end DeadcatNode
