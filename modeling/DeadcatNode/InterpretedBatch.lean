import DeadcatNode.DeadcatInterpreter
import DeadcatNode.InterpretedTransition

/-!
# What an interpreted transaction contains

The result of the interpreter is a batch of creations and state updates.  Every
update spends inputs of the transaction which its contract tracks, all of them,
and every new outpoint is an output of the transaction.
-/

namespace DeadcatNode

open Checked

variable {found : List BinaryMarketContinuation} {live : BinaryMarketLiveOutputs} {base : ℕ}
  {crypto : MarketCrypto} {codec : SimplicityCodec} {transaction : Transaction}

def MarketCrypto.SlotsDistinct (crypto : MarketCrypto) : Prop :=
  ∀ params, (BinaryMarketSlot.all.map fun slot =>
    crypto.scriptHash (crypto.slotScript params slot)).Nodup

/-! ## Continuations -/

section Continuations

variable {compiled : CompiledBinaryMarket} {slot : BinaryMarketSlot}
  {applied : AppliedBinaryMarketTransition}

/-- Continuations at distinct outputs and in distinct slots. -/
def ContinuesDistinctly (crypto : MarketCrypto) (transaction : Transaction)
    (found : List BinaryMarketContinuation) : Prop :=
  ∃ places, ContinuesAt crypto transaction found places ∧
    (places.map Prod.fst).Nodup ∧ (places.map Prod.snd).Nodup

theorem rtContinuation_continuesAt {index : ℕ}
    {assetId : AssetId} {factors : RtFactors} {found : BinaryMarketContinuation}
    (hfound : rtContinuation crypto compiled transaction index slot assetId factors = .ok found) :
    ContinuesAt crypto transaction [found] [(index, slot)] := by
  simp only [rtContinuation, bind_eq_ok, outputAt_eq_ok, okOr_eq_ok,
    require_eq_ok, pure_eq_ok] at hfound
  obtain ⟨txout, hat, _, -, _, -, rfl⟩ := hfound
  exact .cons ⟨txout, hat, rfl⟩ .nil

theorem rtContinuations_continuesAt
    {yesSlot noSlot : BinaryMarketSlot} {yesFactors noFactors : Option RtFactors}
    (hfound : rtContinuations crypto compiled transaction base yesSlot noSlot
      yesFactors noFactors = .ok found) :
    ContinuesAt crypto transaction found [(base, yesSlot), (base + 1, noSlot)] := by
  simp only [rtContinuations, bind_eq_ok, addIndex_eq_ok, pure_eq_ok] at hfound
  obtain ⟨_, -, yes, hyes, _, ⟨rfl, -⟩, _, -, no, hno, rfl⟩ := hfound
  exact ContinuesAt.append (rtContinuation_continuesAt hyes) (rtContinuation_continuesAt hno)

theorem collateralContinuation_continuesAt {index : ℕ}
    {asset : AssetId} {amount : ℕ} {found : BinaryMarketContinuation}
    (hfound : collateralContinuation crypto compiled transaction index slot asset
      amount = .ok found) : ContinuesAt crypto transaction [found] [(index, slot)] := by
  obtain ⟨txout, hat, -, -, rfl⟩ := collateralContinuation_eq_ok.mp hfound
  exact .cons ⟨txout, hat, rfl⟩ .nil

theorem ContinuesAt.single {found : BinaryMarketContinuation} {index : ℕ}
    (hfound : ContinuesAt crypto transaction [found] [(index, slot)]) :
    ContinuesDistinctly crypto transaction [found] :=
  ⟨_, hfound, List.nodup_singleton _, List.nodup_singleton _⟩

theorem continuesDistinctly_nil : ContinuesDistinctly crypto transaction [] :=
  ⟨[], .nil, List.nodup_nil, List.nodup_nil⟩

theorem ContinuesAt.trading {tokens : List BinaryMarketContinuation}
    {collateral : BinaryMarketContinuation}
    (htokens : ContinuesAt crypto transaction tokens
      [(base, .unresolvedYesRt), (base + 1, .unresolvedNoRt)])
    (hcollateral : ContinuesAt crypto transaction [collateral]
      [(base + 2, .unresolvedCollateral)]) :
    ContinuesDistinctly crypto transaction (tokens ++ [collateral]) :=
  ⟨_, htokens.append hcollateral, by simp, by simp⟩

theorem verifyRedemption_continues {tokens : ℕ}
    (hfound : verifyRedemption crypto compiled transaction applied base tokens = .ok found) :
    ContinuesDistinctly crypto transaction found := by
  simp only [verifyRedemption, bind_eq_ok] at hfound
  obtain ⟨_, -, _, -, hfound⟩ := hfound
  split at hfound
  · split at hfound
    · simp only [bind_eq_ok, pure_eq_ok] at hfound
      obtain ⟨collateral, hcollateral, _, -, _, -, rfl⟩ := hfound
      exact (collateralContinuation_continuesAt hcollateral).single
    · simp only [bind_eq_ok, pure_eq_ok] at hfound
      obtain ⟨_, -, rfl⟩ := hfound
      exact continuesDistinctly_nil
  · simp only [bind_eq_ok, pure_eq_ok] at hfound
    obtain ⟨_, -, rfl⟩ := hfound
    exact continuesDistinctly_nil

theorem verifyOutputs_continues {layout : BinaryMarketLayout} {before : BinaryMarketState}
    {sides : BinaryMarketRtSides} {tokens : ℕ}
    (hfound : verifyOutputs crypto compiled transaction layout before live sides
      applied base tokens = .ok found) : ContinuesDistinctly crypto transaction found := by
  simp only [verifyOutputs, bind_eq_ok] at hfound
  obtain ⟨yesFactors, -, noFactors, -, hfound⟩ := hfound
  have hsingle : ∀ {slot : BinaryMarketSlot} {amount : ℕ} {collateral : BinaryMarketContinuation},
      collateralAfter crypto compiled transaction base slot amount =
        .ok collateral → ContinuesAt crypto transaction [collateral] [(base + 2, slot)] :=
    fun hcollateral => (collateralAfter_eq_ok.mp hcollateral).2.2
  split at hfound
  case h_1 | h_2 =>
    simp only [bind_eq_ok, pure_eq_ok] at hfound
    obtain ⟨rts, hrts, amount, -, collateral, hcollateral, rfl⟩ := hfound
    exact (rtContinuations_continuesAt hrts).trading (hsingle hcollateral)
  case h_3 =>
    simp only [bind_eq_ok, pure_eq_ok] at hfound
    obtain ⟨rts, hrts, amount, -, _, -, collateral, hcollateral, rfl⟩ := hfound
    exact (rtContinuations_continuesAt hrts).trading (hsingle hcollateral)
  case h_4 =>
    simp only [bind_eq_ok] at hfound
    obtain ⟨_, -, hfound⟩ := hfound
    exact ⟨_, rtContinuations_continuesAt hfound, by simp, by simp⟩
  case h_5 | h_7 =>
    simp only [bind_eq_ok, pure_eq_ok] at hfound
    obtain ⟨_, -, place, -, collateral, hcollateral, rfl⟩ := hfound
    exact (hsingle hcollateral).single
  case h_6 =>
    simp only [bind_eq_ok, pure_eq_ok] at hfound
    obtain ⟨_, -, _, -, rfl⟩ := hfound
    exact continuesDistinctly_nil
  case h_8 =>
    simp only [bind_eq_ok, pure_eq_ok] at hfound
    obtain ⟨_, -, rfl⟩ := hfound
    exact continuesDistinctly_nil
  case h_9 | h_10 => exact verifyRedemption_continues hfound

end Continuations

/-! ## State updates -/

/-- An update of a contract which was read off a transaction. -/
structure StateUpdate.ReadFrom (crypto : MarketCrypto)
    (transaction : Transaction) (record : ContractRecord) (update : StateUpdate) : Prop where
  contractId : update.contractId = record.contractId
  oldState : update.oldState = record.state
  inputs : ∀ outpoint ∈ update.spentOutpoints, outpoint ∈ transaction.input.map TxIn.previousOutput
  nodup : update.spentOutpoints.Nodup
  all : ∀ tracked ∈ record.outpoints, tracked.outpoint ∈ update.spentOutpoints
  only : ∀ outpoint ∈ update.spentOutpoints,
    outpoint ∈ record.outpoints.map TrackedOutpoint.outpoint
  created : ∀ tracked ∈ update.newOutpoints, tracked.outpoint.txid = crypto.txid transaction ∧
      tracked.outpoint.vout < transaction.output.length
  roles : (update.newOutpoints.map TrackedOutpoint.role).Nodup
  outpoints : (update.newOutpoints.map TrackedOutpoint.outpoint).Nodup

theorem mem_input_of_spendRoles {roles : List (BinaryMarketInputRole × ℕ)} {spent : List OutPoint}
    (hspent : roles.mapM (spendRole live transaction base) = .ok spent) :
    ∀ outpoint ∈ spent, outpoint ∈ transaction.input.map TxIn.previousOutput := by
  intro outpoint hmem
  obtain ⟨i, hi, rfl⟩ := List.getElem_of_mem hmem
  have hall := mapM_eq_ok.mp hspent
  have hrole : i < roles.length := by
    rw [hall.length_eq]
    exact hi
  have hspend := hall.get hrole hi
  obtain ⟨tracked, input, -, -, hinput, hprevious, houtpoint⟩ := spendRole_eq_ok.mp hspend
  rw [List.get_eq_getElem] at houtpoint
  rw [houtpoint, ← hprevious]
  exact List.mem_map_of_mem (List.mem_of_getElem? hinput)

theorem interpretBinaryMarketSpend_ok {params : BinaryMarketParams} {before : BinaryMarketState}
    {result : BinaryMarketInterpretation}
    (hresult : interpretBinaryMarketSpend crypto codec params before live
      transaction = .ok result) :
    (∀ outpoint ∈ result.spentOutpoints, outpoint ∈ transaction.input.map TxIn.previousOutput) ∧
      ContinuesDistinctly crypto transaction result.continuations := by
  simp only [interpretBinaryMarketSpend, interpretBinaryMarketSpendWithCompiled,
    interpretAction, interpretDecodedAction, verifyInputGroup, bind_eq_ok, pure_eq_ok] at hresult
  obtain ⟨compiled, -, _, -, head, -, headIndex, -, _, -, _, -, decoded, -, _, -,
    _, -, operation, -, sides, -, full, -, coordinator, -, layout, -, details, -,
    economics, -, spent, ⟨_, hspent, _, -, rfl⟩, action, -, applied, -,
    continuations, hcontinuations, rfl⟩ := hresult
  exact ⟨mem_input_of_spendRoles hspent, verifyOutputs_continues hcontinuations⟩

theorem ContinuesDistinctly.tracked (hfound : ContinuesDistinctly crypto transaction found) :
    let outpoints := found.map fun item : BinaryMarketContinuation =>
      (⟨item.slot.tag, item.output.outpoint⟩ : TrackedOutpoint)
    (∀ tracked ∈ outpoints, tracked.outpoint.txid = crypto.txid transaction ∧
        tracked.outpoint.vout < transaction.output.length) ∧
      (outpoints.map TrackedOutpoint.role).Nodup ∧
      (outpoints.map TrackedOutpoint.outpoint).Nodup := by
  obtain ⟨places, hplaces, hindexes, hslots⟩ := hfound
  have hroles : (found.map fun item => item.slot.tag) =
      (places.map Prod.snd).map BinaryMarketSlot.tag := by
    clear hindexes hslots
    induction hplaces with
    | nil => rfl
    | cons hitem _ ih =>
      obtain ⟨txout, -, rfl⟩ := hitem
      simp [continuation, ih]
  have houtpoints : (found.map fun item => item.output.outpoint) =
      (places.map Prod.fst).map fun vout => ⟨crypto.txid transaction, vout⟩ := by
    clear hindexes hslots hroles
    induction hplaces with
    | nil => rfl
    | cons hitem _ ih =>
      obtain ⟨txout, -, rfl⟩ := hitem
      simp [continuation, ih]
  simp only [List.map_map, Function.comp_def]
  refine ⟨?_, ?_, ?_⟩
  · intro tracked htracked
    obtain ⟨item, hitem, rfl⟩ := List.mem_map.mp htracked
    clear hindexes hslots hroles houtpoints htracked
    induction hplaces with
    | nil => cases hitem
    | cons hfirst _ ih =>
      rcases List.mem_cons.mp hitem with rfl | hrest
      · obtain ⟨txout, hat, rfl⟩ := hfirst
        exact ⟨rfl, (List.getElem?_eq_some_iff.mp hat).1⟩
      · exact ih hrest
  · rw [hroles]
    exact hslots.map BinaryMarketSlot.tag_injective
  · rw [houtpoints]
    exact hindexes.map fun vout vout' hsame => by
      injection hsame

theorem interpretContract_ok {context : InterpretationContext}
    {record : ContractRecord} {update : StateUpdate}
    (hupdate : interpretContract crypto codec context record transaction = .ok update) :
    update.ReadFrom crypto transaction record := by
  simp only [interpretContract, ensureCompleteSpend, bind_eq_ok, require_eq_ok,
    mapError_eq_ok, pure_eq_ok] at hupdate
  obtain ⟨live, -, interpreted, hinterpreted, _, ⟨hnodup, hall, honly⟩, rfl⟩ := hupdate
  obtain ⟨hinputs, hcontinues⟩ := interpretBinaryMarketSpend_ok hinterpreted
  obtain ⟨hcreated, hroles, houtpoints⟩ := hcontinues.tracked
  exact ⟨rfl, rfl, hinputs, hnodup, hall, honly, hcreated, hroles, houtpoints⟩

/-! ## Creations -/

/-- A market which was found in a transaction of a canonical block. -/
structure ContractRecord.FoundIn (crypto : MarketCrypto)
    (context : InterpretationContext) (transaction : Transaction)
    (record : ContractRecord) : Prop where
  position : record.creationPosition = context.position
  txid : record.contractId.txid = crypto.txid transaction
  anchor : record.contractId.vout < transaction.output.length
  tracked : ∃ tracked ∈ record.outpoints, tracked.outpoint = record.contractId.creationAnchor
  valid : record.Valid crypto.toHashing
  outputs : ∀ tracked ∈ record.outpoints, tracked.outpoint.txid = crypto.txid transaction ∧
      tracked.outpoint.vout < transaction.output.length
  ready : record.syncState = .ready context.anchor

section Creations

variable {interpreter : DeadcatInterpreter} {context : InterpretationContext}

theorem uniqueMarketOutput_ok {script : Script} {commitments : RtCommitments} {index : ℕ}
    (hindex : uniqueMarketOutput transaction script commitments = .ok index) :
    ∃ txout, transaction.output[index]? = some txout ∧ txout.scriptPubkey = script := by
  unfold uniqueMarketOutput at hindex
  dsimp only at hindex
  split at hindex
  · next found hfound =>
    simp only [bind_eq_ok, pure_eq_ok] at hindex
    obtain ⟨_, -, rfl⟩ := hindex
    have hmem : found ∈ (transaction.output.zipIdx.filter fun entry =>
        entry.1.scriptPubkey = script && entry.1.asset = commitments.1 &&
          entry.1.value = commitments.2).map Prod.snd := by
      rw [hfound]
      exact List.mem_singleton_self found
    obtain ⟨⟨txout, i⟩, hentry, hsame⟩ := List.mem_map.mp hmem
    dsimp only at hsame
    subst hsame
    obtain ⟨hzip, hmatches⟩ := List.mem_filter.mp hentry
    simp only [Bool.and_eq_true, decide_eq_true_eq] at hmatches
    exact ⟨txout, List.mem_zipIdx_iff_getElem?.mp hzip, hmatches.1.1⟩
  · cases hindex

theorem MarketCrypto.SlotsDistinct.slotScript_ne
    (hslots : crypto.SlotsDistinct) (params : BinaryMarketParams) :
    crypto.slotScript params .dormantYesRt ≠ crypto.slotScript params .dormantNoRt := by
  intro hsame
  have hnodup := hslots params
  simp only [BinaryMarketSlot.all, List.map_cons, List.nodup_cons, List.mem_cons, not_or] at hnodup
  exact hnodup.1.1 (congrArg crypto.scriptHash hsame)

theorem MarketCrypto.SlotsDistinct.valid (hslots : crypto.SlotsDistinct)
    {params : BinaryMarketParams} {contractId : ContractId}
    {position : ChainPosition} {anchor : ChainAnchor}
    {yesOutpoint noOutpoint : OutPoint} (hne : yesOutpoint ≠ noOutpoint) :
    (createdMarket crypto params contractId position anchor yesOutpoint
      noOutpoint).Valid crypto.toHashing := by
  refine ⟨?_, ?_, ?_, ?_⟩
  · simp only [createdMarket, List.map_cons, List.map_nil]
    decide
  · simpa [createdMarket] using hne
  · simp only [createdMarket, List.map_map, Function.comp_def]
    decide
  · simpa [createdMarket, Function.comp_def] using hslots params

theorem verifyCandidate_ok (hslots : crypto.SlotsDistinct)
    {suppliedParams : Option BinaryMarketParams}
    {expectedContractId : Option ContractId} {record : ContractRecord}
    {location : Option RecoveryHintLocation}
    (hrecord : DeadcatInterpreter.verifyCandidate crypto interpreter context
      transaction suppliedParams expectedContractId =
        some (record, location)) : record.FoundIn crypto context transaction := by
  unfold DeadcatInterpreter.verifyCandidate at hrecord
  split at hrecord
  · next verified hverified =>
    simp only [Option.some.injEq, Prod.mk.injEq] at hrecord
    obtain ⟨rfl, -⟩ := hrecord
    simp only [verifyBinaryMarketCreation, dormantOutput, bind_eq_ok,
      require_eq_ok, pure_eq_ok] at hverified
    obtain ⟨params, -, _, -, yesOutput, ⟨_, -, hyes⟩, noOutput, ⟨_, -, hno⟩, _, -,
      _, -, _, hexpected, rfl⟩ := hverified
    obtain ⟨yesTxout, hyesAt, hyesScript⟩ := uniqueMarketOutput_ok hyes
    obtain ⟨noTxout, hnoAt, hnoScript⟩ := uniqueMarketOutput_ok hno
    have hid : expectedContractId.getD ⟨⟨crypto.txid transaction, yesOutput⟩⟩ =
        ⟨⟨crypto.txid transaction, yesOutput⟩⟩ := by
      cases expectedContractId with
      | none => rfl
      | some contractId =>
        have hanchor := hexpected contractId rfl
        cases contractId
        simpa using hanchor
    have hne : yesOutput ≠ noOutput := by
      rintro rfl
      rw [hyesAt] at hnoAt
      cases hnoAt
      exact hslots.slotScript_ne params (hyesScript.symm.trans hnoScript)
    have hvalid : (createdMarket crypto params
        ⟨⟨crypto.txid transaction, yesOutput⟩⟩ context.position context.anchor
        ⟨crypto.txid transaction, yesOutput⟩
        ⟨crypto.txid transaction, noOutput⟩).Valid crypto.toHashing :=
      hslots.valid (by simpa using hne)
    have hyesLt := (List.getElem?_eq_some_iff.mp hyesAt).1
    have hnoLt := (List.getElem?_eq_some_iff.mp hnoAt).1
    rw [hid]
    refine ⟨rfl, rfl, hyesLt, ⟨_, List.mem_cons_self, rfl⟩,
      ⟨hvalid.roles, hvalid.outpoints, hvalid.scriptRoles, hvalid.scriptHashes⟩, ?_, rfl⟩
    intro tracked htracked
    simp only [createdMarket, List.mem_cons, List.not_mem_nil, or_false] at htracked
    rcases htracked with rfl | rfl
    · exact ⟨rfl, hyesLt⟩
    · exact ⟨rfl, hnoLt⟩
  · cases hrecord

/-- A creation which is new to the context. -/
def ContractRecord.NewIn (crypto : MarketCrypto)
    (context : InterpretationContext) (transaction : Transaction)
    (record : ContractRecord) : Prop :=
  record.FoundIn crypto context transaction ∧ contractInContext context record.contractId = .ok none

theorem retainCanonicalCreation_ok {created created' : List ContractRecord}
    {candidate : ContractRecord}
    (hcreated : ∀ record ∈ created, record.NewIn crypto context transaction)
    (hcandidate : candidate.FoundIn crypto context transaction)
    (hretain : retainCanonicalCreation context created candidate = .ok created') :
    ∀ record ∈ created', record.NewIn crypto context transaction := by
  unfold retainCanonicalCreation at hretain
  split at hretain
  · simp only [bind_eq_ok, pure_eq_ok] at hretain
    obtain ⟨_, -, rfl⟩ := hretain
    exact hcreated
  · simp only [bind_eq_ok] at hretain
    obtain ⟨found, hfound, hretain⟩ := hretain
    split at hretain
    · simp only [bind_eq_ok, pure_eq_ok] at hretain
      obtain ⟨_, -, rfl⟩ := hretain
      exact hcreated
    · simp only [pure_eq_ok] at hretain
      subst hretain
      intro record hrecord
      rcases List.mem_append.mp hrecord with hold | hnew
      · exact hcreated record hold
      · rw [List.mem_singleton.mp hnew]
        exact ⟨hcandidate, hfound⟩

theorem discover_ok (hslots : crypto.SlotsDistinct)
    {created : List ContractRecord} {hints : List InterpretedRecoveryHint}
    (hdiscover : DeadcatInterpreter.discover crypto interpreter context
      transaction = .ok (created, hints)) :
    ∀ record ∈ created, record.NewIn crypto context transaction := by
  simp only [DeadcatInterpreter.discover, bind_eq_ok] at hdiscover
  obtain ⟨retained, hretained, hdiscover⟩ := hdiscover
  have hfirst : ∀ record ∈ retained, record.NewIn crypto context transaction := by
    refine foldlM_invariant (fun records : List ContractRecord =>
      ∀ record ∈ records, record.NewIn crypto context transaction) ?_
      context.retainedDeclarations (by simp) hretained
    intro records declaration records' hrecords hstep
    unfold DeadcatInterpreter.discoverRetained at hstep
    split at hstep
    · next record _ hcandidate =>
      exact retainCanonicalCreation_ok hrecords (verifyCandidate_ok hslots hcandidate) hstep
    · cases hstep
      exact hrecords
  split at hdiscover
  · unfold DeadcatInterpreter.discoverHinted at hdiscover
    split at hdiscover
    · cases hdiscover
      exact hfirst
    · next record _ hcandidate =>
      simp only [bind_eq_ok] at hdiscover
      obtain ⟨records, hrecords, hdiscover⟩ := hdiscover
      have hall := retainCanonicalCreation_ok hfirst (verifyCandidate_ok hslots hcandidate) hrecords
      split at hdiscover
      · cases hdiscover
        exact hall
      · simp only [bind_eq_ok, pure_eq_ok, Prod.mk.injEq] at hdiscover
        obtain ⟨_, -, rfl, -⟩ := hdiscover
        exact hall
  · cases hdiscover
    exact hfirst

end Creations

/-! ## The batch -/

/-- A consistent batch which was read off a transaction of a canonical block. -/
structure TransactionInterpretation.ReadFrom (crypto : MarketCrypto)
    (context : InterpretationContext) (transaction : Transaction)
    (result : TransactionInterpretation) : Prop where
  created : ∀ record ∈ result.createdContracts, record.NewIn crypto context transaction
  updates : ∀ update ∈ result.stateUpdates, ∃ record,
    contractInContext context update.contractId = .ok (some record) ∧
      update.ReadFrom crypto transaction record
  owners : ∀ input ∈ transaction.input, ∀ owner,
    ownerInContext context input.previousOutput = .live owner →
      owner.contractId ∈ result.stateUpdates.map StateUpdate.contractId
  unspent : ∀ input ∈ transaction.input, ∀ contractId,
    ownerInContext context input.previousOutput ≠ .spentEarlier contractId
  contracts : (result.createdContracts.map ContractRecord.contractId ++
    result.stateUpdates.map StateUpdate.contractId).Nodup
  spent : (result.stateUpdates.flatMap StateUpdate.spentOutpoints).Nodup
  outpoints : ((result.createdContracts.flatMap ContractRecord.outpoints ++
    result.stateUpdates.flatMap StateUpdate.newOutpoints).map TrackedOutpoint.outpoint).Nodup

def InterpretationContext.Keyed (context : InterpretationContext) : Prop :=
  ∀ c record, contractInContext context c = .ok (some record) → record.contractId = c

section Batch

variable {interpreter : DeadcatInterpreter} {context : InterpretationContext}

theorem touchOwner_ok {touched touched' : List ContractId} {input : TxIn}
    (hmode : context.mode = .canonical) (htouch : touchOwner context touched input = .ok touched') :
    (∀ c ∈ touched, c ∈ touched') ∧
      (∀ owner, ownerInContext context input.previousOutput = .live owner →
        owner.contractId ∈ touched') ∧
      ∀ c, ownerInContext context input.previousOutput ≠ .spentEarlier c := by
  unfold touchOwner at htouch
  cases howner : ownerInContext context input.previousOutput with
  | untracked =>
    rw [howner] at htouch
    cases htouch
    simp
  | spentEarlier contractId =>
    rw [howner] at htouch
    cases htouch
  | live owner =>
    rw [howner] at htouch
    simp only [hmode, InterpretationMode.targets, true_and] at htouch
    refine ⟨?_, ?_, by simp⟩
    · intro c hc
      split at htouch
      · cases htouch
        exact List.mem_append_left _ hc
      · cases htouch
        exact hc
    · intro owner' howner'
      cases howner'
      split at htouch
      · cases htouch
        exact List.mem_append_right _ (List.mem_singleton_self _)
      · next hin =>
        cases htouch
        exact not_not.mp hin

theorem touchOwners_ok (hmode : context.mode = .canonical)
    {inputs : List TxIn} {touched touched' : List ContractId}
    (htouch : inputs.foldlM (touchOwner context) touched = .ok touched') :
    (∀ c ∈ touched, c ∈ touched') ∧ ∀ input ∈ inputs,
        (∀ owner, ownerInContext context input.previousOutput = .live owner →
          owner.contractId ∈ touched') ∧
        ∀ c, ownerInContext context input.previousOutput ≠ .spentEarlier c := by
  induction inputs generalizing touched with
  | nil =>
    simp only [List.foldlM_nil, pure_eq_ok] at htouch
    subst htouch
    simp
  | cons input rest ih =>
    simp only [List.foldlM_cons, bind_eq_ok] at htouch
    obtain ⟨mid, hfirst, hrest⟩ := htouch
    obtain ⟨hkept, howner, hunspent⟩ := touchOwner_ok hmode hfirst
    obtain ⟨hkept', hinputs⟩ := ih hrest
    refine ⟨fun c hc => hkept' c (hkept c hc), ?_⟩
    intro other hother
    rcases List.mem_cons.mp hother with rfl | hother
    · exact ⟨fun owner hlive => hkept' _ (howner owner hlive), hunspent⟩
    · exact hinputs other hother

theorem interpretTransaction_ok (hslots : crypto.SlotsDistinct)
    (hkeyed : context.Keyed) (hmode : context.mode = .canonical)
    {result : TransactionInterpretation}
    (hresult : DeadcatInterpreter.interpretTransaction crypto codec interpreter
      context transaction = .ok result) : result.ReadFrom crypto context transaction := by
  simp only [DeadcatInterpreter.interpretTransaction,
    DeadcatInterpreter.validateAtomicClaims, hmode, bind_eq_ok, require_eq_ok,
    pure_eq_ok, Prod.exists] at hresult
  obtain ⟨created, hints, hdiscover, touched, htouched, updates, hupdates, _,
    ⟨hcontracts, hspent, houtpoints⟩, rfl⟩ := hresult
  obtain ⟨-, hinputs⟩ := touchOwners_ok hmode htouched
  have hall := mapM_eq_ok.mp hupdates
  have hread : List.Forall₂ (fun c update => update.contractId = c ∧
      ∃ record, contractInContext context c = .ok (some record) ∧
        update.ReadFrom crypto transaction record) touched updates := by
    refine hall.imp ?_
    intro c update hupdate
    simp only [interpretTouched, bind_eq_ok, okOr_eq_ok] at hupdate
    obtain ⟨_, hrecord, record, rfl, hcontract⟩ := hupdate
    have hfrom := interpretContract_ok hcontract
    exact ⟨hfrom.contractId.trans (hkeyed c record hrecord), record, hrecord, hfrom⟩
  have hids : updates.map StateUpdate.contractId = touched := by
    clear hupdates hall hcontracts hspent houtpoints htouched hinputs
    induction hread with
    | nil => rfl
    | cons hfirst _ ih => rw [List.map_cons, hfirst.1, ih]
  refine ⟨discover_ok hslots hdiscover, ?_, ?_, ?_, hcontracts, hspent, houtpoints⟩
  · intro update hupdate
    obtain ⟨i, hi, rfl⟩ := List.getElem_of_mem hupdate
    have htouch : i < touched.length := by
      rw [hread.length_eq]
      exact hi
    obtain ⟨hid, record, hrecord, hfrom⟩ := hread.get htouch hi
    simp only [List.get_eq_getElem] at hid hrecord hfrom
    rw [← hid] at hrecord
    exact ⟨record, hrecord, hfrom⟩
  · intro input hinput owner hlive
    rw [hids]
    exact (hinputs input hinput).1 owner hlive
  · intro input hinput c
    exact (hinputs input hinput).2 c

end Batch

end DeadcatNode
