import DeadcatNode.CanonicalBlocks

/-!
# Discovery of markets

A market is verified in one of two ways.  From a recovery hint, its parameters
are derived from fixed places of the creating transaction.  From declared
parameters, all inputs and outputs are searched.  Both ways end with the same
registration, and no two markets claim the same id.
-/

namespace DeadcatNode

open Checked

section Verification

variable {crypto : MarketCrypto} {transaction : Transaction} {position : ChainPosition}
  {anchor : ChainAnchor} {network : LiquidNetwork} {policyAsset : AssetId}
  {supplied supplied' : Option BinaryMarketParams} {expected expected' : Option ContractId}
  {verified verified' : VerifiedRegistration}

def MarketCrypto.NoCollision (crypto : MarketCrypto) (markets : Set BinaryMarketParams) : Prop :=
  Set.InjOn (fun params => crypto.slotScript params .dormantYesRt) markets

theorem getD_expectedContractId {creationAnchor : OutPoint}
    (hexpected : ∀ contractId ∈ expected, contractId.creationAnchor = creationAnchor) :
    expected.getD ⟨creationAnchor⟩ = ⟨creationAnchor⟩ := by
  cases expected with
  | none => rfl
  | some contractId =>
    rw [Option.getD_some, ← hexpected contractId rfl]

/-- At most one market is created under an id. -/
theorem verifyBinaryMarketCreation_unique
    (hverified : verifyBinaryMarketCreation crypto transaction position anchor network
      policyAsset supplied expected = .ok verified)
    (hverified' : verifyBinaryMarketCreation crypto transaction position anchor network
      policyAsset supplied' expected' = .ok verified')
    (hcollision : crypto.NoCollision {verified.record.params, verified'.record.params})
    (hid : verified.record.contractId = verified'.record.contractId) : verified = verified' := by
  simp only [verifyBinaryMarketCreation, dormantOutput, bind_eq_ok, mapError_eq_ok,
    okOr_eq_ok, require_eq_ok, pure_eq_ok] at hverified hverified'
  obtain ⟨params, -, compiled, hcompiled, yesOutput, ⟨commitments, -, hyes⟩, noOutput,
    ⟨_, hno, hnoOutput⟩, _, -, _, -, _, hexpected, rfl⟩ := hverified
  obtain ⟨params', -, compiled', hcompiled', yesOutput', ⟨commitments', -, hyes'⟩, noOutput',
    ⟨_, hno', hnoOutput'⟩, _, -, _, -, _, hexpected', rfl⟩ := hverified'
  simp only [createdMarket, getD_expectedContractId hexpected,
    getD_expectedContractId hexpected', ContractId.mk.injEq, OutPoint.mk.injEq, true_and] at hid
  subst hid
  obtain ⟨txout, hat, hscript⟩ := uniqueMarketOutput_ok hyes
  obtain ⟨txout', hat', hscript'⟩ := uniqueMarketOutput_ok hyes'
  cases hat.symm.trans hat'
  have hparams : params = params' := hcollision (Set.mem_insert _ _)
    (Set.mem_insert_of_mem _ rfl) (hscript.symm.trans hscript')
  cases hparams
  cases hno.symm.trans hno'
  cases hnoOutput.symm.trans hnoOutput'
  rw [getD_expectedContractId hexpected, getD_expectedContractId hexpected']

/-! ## Derived parameters pass the search -/

theorem issuanceIds_of_canonical {input : TxIn} (hcanonical : isCanonicalNewIssuance input = true) :
    crypto.issuanceIds input =
      (crypto.assetFromEntropy (crypto.generateAssetEntropy input.previousOutput 0),
        crypto.reissuanceTokenFromEntropy
          (crypto.generateAssetEntropy input.previousOutput 0) false) := by
  simp only [isCanonicalNewIssuance, Bool.and_eq_true, decide_eq_true_eq] at hcanonical
  obtain ⟨⟨⟨⟨-, hnonce⟩, hentropy⟩, hamount⟩, -⟩ := hcanonical
  simp [MarketCrypto.issuanceIds, hnonce, hentropy, hamount, Confidential.Value.isConfidential]

theorem filter_others_eq_nil {others : List TxIn}
    (hothers : others.any TxIn.hasIssuance = false) (start : ℕ) (defines : TxIn × ℕ → Bool) :
    (others.zipIdx start).filter
      (fun entry => isCanonicalNewIssuance entry.1 && defines entry) = [] := by
  rw [List.filter_eq_nil_iff]
  intro entry hentry
  have hinput := List.any_eq_false.mp hothers entry.1 (List.fst_mem_of_mem_zipIdx hentry)
  simp [isCanonicalNewIssuance, Bool.eq_false_iff.mpr hinput]

theorem checkSuppliedParams_of_standalone {params : BinaryMarketParams}
    {hints : List (ℕ × MarketRecoveryHint)} {compiled : CompiledBinaryMarket}
    (hparams : standaloneParams crypto transaction hints network policyAsset = .ok params)
    (hcompiled : CompiledBinaryMarket.new crypto params = .ok compiled) :
    checkSuppliedParams crypto transaction params = .ok () := by
  obtain ⟨rfl, hvalid⟩ := CompiledBinaryMarket.new_eq_ok hcompiled
  have hassets := hvalid.assets
  unfold standaloneParams at hparams
  split at hparams
  · next yesInput noInput others hinputs =>
    split at hparams
    · simp only [bind_eq_ok, require_eq_ok, pure_eq_ok] at hparams
      obtain ⟨_, -, _, -, _, ⟨hyes, hno, hothers⟩, _, -, hparams⟩ := hparams
      rw [← hparams] at hassets ⊢
      simp only [deriveIssuanceAssets, List.nodup_cons, List.mem_cons, not_or] at hassets
      have hne := hassets.2.1.1
      simp [checkSuppliedParams, uniqueDefiningInput, hinputs, deriveIssuanceAssets, hyes, hno,
        issuanceIds_of_canonical, hne, Ne.symm hne, filter_others_eq_nil hothers,
        List.zipIdx_cons]
    · cases hparams
  · split at hparams <;> cases hparams

/-- A market found from its hint verifies in the same way from its own
parameters, and a transaction creates at most one market under an id. -/
theorem creation_verification_modes_agree (crypto : MarketCrypto) (transaction : Transaction)
    (position : ChainPosition) (anchor : ChainAnchor) (network : LiquidNetwork)
    (policyAsset : AssetId) :
    (∀ expected verified, verifyBinaryMarketCreation crypto transaction position anchor network
        policyAsset none expected = .ok verified →
      verifyBinaryMarketCreation crypto transaction position anchor network policyAsset
        (some verified.record.params) (some verified.record.contractId) = .ok verified) ∧
      ∀ supplied supplied' expected expected' verified verified',
        verifyBinaryMarketCreation crypto transaction position anchor network policyAsset
          supplied expected = .ok verified →
        verifyBinaryMarketCreation crypto transaction position anchor network policyAsset
          supplied' expected' = .ok verified' →
        crypto.NoCollision {verified.record.params, verified'.record.params} →
        verified.record.contractId = verified'.record.contractId → verified = verified' := by
  constructor
  · intro expected verified hverified
    simp only [verifyBinaryMarketCreation, creationParams, bind_eq_ok, mapError_eq_ok,
      require_eq_ok, pure_eq_ok] at hverified ⊢
    obtain ⟨params, hparams, compiled, hcompiled, yesOutput, hyes, noOutput, hno, _, -, _, -,
      _, hexpected, rfl⟩ := hverified
    refine ⟨params, ⟨(), checkSuppliedParams_of_standalone hparams hcompiled, rfl⟩, compiled,
      hcompiled, yesOutput, hyes, noOutput, hno, (), by simp, (), by simp, (), ?_, rfl⟩
    rintro contractId ⟨rfl⟩
    exact congrArg ContractId.creationAnchor (getD_expectedContractId hexpected)
  · intro supplied supplied' expected expected' verified verified' hverified hverified'
    exact verifyBinaryMarketCreation_unique hverified hverified'

end Verification

theorem announced_creation_modes_agree : ∃ verified,
    verifyBinaryMarketCreation sampleCrypto announcedCreation ⟨1, 0⟩ ⟨1, 101⟩ .elementsRegtest 1
      none none = .ok verified ∧
    verifyBinaryMarketCreation sampleCrypto announcedCreation ⟨1, 0⟩ ⟨1, 101⟩ .elementsRegtest 1
      (some verified.record.params) (some verified.record.contractId) = .ok verified := by
  have hhinted : isOkAnd (verifyBinaryMarketCreation sampleCrypto announcedCreation ⟨1, 0⟩
      ⟨1, 101⟩ .elementsRegtest 1 none none) (fun _ => true) = true := by decide +kernel
  obtain ⟨verified, hverified, -⟩ := isOkAnd_iff.mp hhinted
  exact ⟨verified, hverified,
    (creation_verification_modes_agree _ _ _ _ _ _).1 none verified hverified⟩

/-! ## Discovery in a canonical block -/

namespace DeadcatInterpreter

variable {crypto : MarketCrypto} {interpreter : DeadcatInterpreter}
  {context : InterpretationContext} {transaction : Transaction}
  {record record' : ContractRecord} {created : List ContractRecord}

/-- The record of a market which verifies from its hint or from a declaration. -/
def Candidate (crypto : MarketCrypto) (interpreter : DeadcatInterpreter)
    (context : InterpretationContext) (transaction : Transaction) (record : ContractRecord) :
    Prop :=
  (∃ location, verifyCandidate crypto interpreter context transaction none none =
    some (record, location)) ∨
  ∃ declaration ∈ context.retainedDeclarations, ∃ location,
    verifyCandidate crypto interpreter context transaction (some declaration.params)
      (some declaration.contractId) = some (record, location)

/-- No two markets at hand have one script for their dormant YES token. -/
def CandidatesDistinct (crypto : MarketCrypto) (interpreter : DeadcatInterpreter)
    (context : InterpretationContext) (transaction : Transaction) : Prop :=
  crypto.NoCollision
    (ContractRecord.params '' {record | Candidate crypto interpreter context transaction record})

theorem verifyCandidate_eq_some {supplied : Option BinaryMarketParams}
    {expected : Option ContractId} {location : Option RecoveryHintLocation} :
    verifyCandidate crypto interpreter context transaction supplied expected =
        some (record, location) ↔
      ∃ verified, verifyBinaryMarketCreation crypto transaction context.position context.anchor
          interpreter.network interpreter.policyAsset supplied expected = .ok verified ∧
        record = { verified.record with syncState := .ready context.anchor } ∧
        location = verified.associatedHint := by
  unfold verifyCandidate
  split
  · next verified hverified =>
    rw [hverified]
    simp [eq_comm]
  · next hverified =>
    rw [hverified]
    simp

theorem Candidate.verified (hrecord : Candidate crypto interpreter context transaction record) :
    ∃ supplied expected verified, verifyBinaryMarketCreation crypto transaction context.position
        context.anchor interpreter.network interpreter.policyAsset supplied expected =
          .ok verified ∧
      record = { verified.record with syncState := .ready context.anchor } := by
  rcases hrecord with ⟨_, hcandidate⟩ | ⟨_, -, _, hcandidate⟩ <;>
  · obtain ⟨verified, hverified, rfl, -⟩ := verifyCandidate_eq_some.mp hcandidate
    exact ⟨_, _, verified, hverified, rfl⟩

theorem Candidate.eq_of_contractId
    (hrecord : Candidate crypto interpreter context transaction record)
    (hrecord' : Candidate crypto interpreter context transaction record')
    (hdistinct : CandidatesDistinct crypto interpreter context transaction)
    (hid : record.contractId = record'.contractId) : record = record' := by
  have hpair : crypto.NoCollision {record.params, record'.params} := by
    refine Set.InjOn.mono (Set.insert_subset ?_ (Set.singleton_subset_iff.mpr ?_)) hdistinct
    · exact ⟨record, hrecord, rfl⟩
    · exact ⟨record', hrecord', rfl⟩
  obtain ⟨_, _, verified, hverified, rfl⟩ := hrecord.verified
  obtain ⟨_, _, verified', hverified', rfl⟩ := hrecord'.verified
  rw [verifyBinaryMarketCreation_unique hverified hverified' hpair hid]

theorem Candidate.txid (hrecord : Candidate crypto interpreter context transaction record) :
    record.contractId.creationAnchor.txid = crypto.txid transaction := by
  obtain ⟨_, _, verified, hverified, rfl⟩ := hrecord.verified
  simp only [verifyBinaryMarketCreation, bind_eq_ok, require_eq_ok, pure_eq_ok] at hverified
  obtain ⟨_, -, _, -, _, -, _, -, _, -, _, -, _, hexpected, rfl⟩ := hverified
  simp only [createdMarket, getD_expectedContractId hexpected]

/-- Verified markets, each once. -/
structure Found (crypto : MarketCrypto) (interpreter : DeadcatInterpreter)
    (context : InterpretationContext) (transaction : Transaction)
    (created : List ContractRecord) : Prop where
  candidates : ∀ record ∈ created, Candidate crypto interpreter context transaction record
  ids : (created.map ContractRecord.contractId).Nodup

/-- The context knows no contract of the transaction. -/
def NewTo (crypto : MarketCrypto) (context : InterpretationContext)
    (transaction : Transaction) : Prop :=
  ∀ contractId : ContractId, contractId.creationAnchor.txid = crypto.txid transaction →
    contractInContext context contractId = .ok none

section Discovery

variable (hdistinct : CandidatesDistinct crypto interpreter context transaction)
  (hnew : NewTo crypto context transaction)

include hdistinct hnew

theorem retainCanonicalCreation_found
    (hfound : Found crypto interpreter context transaction created)
    (hrecord : Candidate crypto interpreter context transaction record) :
    ∃ created', retainCanonicalCreation context created record = .ok created' ∧
      Found crypto interpreter context transaction created' ∧
      ∀ other, other ∈ created' ↔ other ∈ created ∨ other = record := by
  unfold retainCanonicalCreation
  split
  · next existing hexisting =>
    have hmem := List.mem_of_find?_eq_some hexisting
    have hid : existing.contractId = record.contractId := by simpa using List.find?_some hexisting
    cases (hfound.candidates existing hmem).eq_of_contractId hrecord hdistinct hid
    refine ⟨created, by simp [ensureCreationIdentity, require], hfound, ?_⟩
    intro other
    exact ⟨.inl, fun hother => hother.elim id fun hsame => hsame ▸ hmem⟩
  · next habsent =>
    rw [hnew record.contractId hrecord.txid]
    refine ⟨created ++ [record], rfl, ⟨?_, ?_⟩, by simp⟩
    · intro other hother
      rcases List.mem_append.mp hother with hold | hlast
      · exact hfound.candidates other hold
      · rwa [List.mem_singleton.mp hlast]
    · rw [List.map_append, List.map_singleton, List.nodup_append]
      refine ⟨hfound.ids, List.nodup_singleton _, ?_⟩
      rintro _ hid _ hlast
      obtain ⟨other, hother, rfl⟩ := List.mem_map.mp hid
      rw [List.mem_singleton.mp hlast]
      simpa using List.find?_eq_none.mp habsent other hother

theorem discoverRetained_found {declarations : List ContractDeclaration}
    (hdeclared : declarations ⊆ context.retainedDeclarations)
    (hfound : Found crypto interpreter context transaction created) :
    ∃ created', declarations.foldlM
        (discoverRetained crypto interpreter context transaction) created = .ok created' ∧
      Found crypto interpreter context transaction created' ∧
      ∀ record, record ∈ created' ↔ record ∈ created ∨ ∃ declaration ∈ declarations,
        ∃ location, verifyCandidate crypto interpreter context transaction
          (some declaration.params) (some declaration.contractId) = some (record, location) := by
  induction declarations generalizing created with
  | nil => exact ⟨created, rfl, hfound, by simp⟩
  | cons declaration rest ih =>
    rw [List.foldlM_cons, discoverRetained]
    obtain ⟨hfirst, hrest⟩ := List.cons_subset.mp hdeclared
    replace ih := fun {created} => @ih created hrest
    cases hcandidate : verifyCandidate crypto interpreter context transaction
        (some declaration.params) (some declaration.contractId) with
    | none =>
      obtain ⟨created', hrest, hfound', hmem⟩ := ih hfound
      refine ⟨created', hrest, hfound', ?_⟩
      simp [hmem, hcandidate]
    | some candidate =>
      obtain ⟨candidate, location⟩ := candidate
      obtain ⟨mid, hretain, hmid, hmidMem⟩ :=
        retainCanonicalCreation_found hdistinct hnew hfound
          (.inr ⟨declaration, hfirst, _, hcandidate⟩)
      obtain ⟨created', hrest, hfound', hmem⟩ := ih hmid
      refine ⟨created', by simpa [hretain] using hrest, hfound', ?_⟩
      intro record
      simp [hmem, hmidMem, hcandidate, or_assoc, eq_comm]

end Discovery

theorem associateHint_isSome {outputIndex : ℕ} (contractId : ContractId)
    {hints : List InterpretedRecoveryHint}
    (hhint : ∃ hint ∈ hints, hint.outputIndex = outputIndex) :
    ∃ hints', associateHint outputIndex contractId hints = some hints' := by
  induction hints with
  | nil => simp at hhint
  | cons hint rest ih =>
    rw [associateHint]
    split
    · exact ⟨_, rfl⟩
    · next hother =>
      obtain ⟨hints', hrest⟩ := ih (by simpa [hother] using hhint)
      exact ⟨hint :: hints', by rw [hrest]; rfl⟩

theorem foldl_scanOutput_candidates_subset {txid : Txid} {position : ChainPosition}
    {network : LiquidNetwork} {policyAsset : AssetId} (entries : List (TxOut × ℕ))
    {scan : HintScanResult} {candidate : RecoveryHintCandidate}
    (hcandidate : candidate ∈ scan.candidates) :
    candidate ∈ (entries.foldl (scanOutput txid position network policyAsset) scan).candidates := by
  induction entries generalizing scan with
  | nil => exact hcandidate
  | cons entry rest ih =>
    apply ih
    unfold scanOutput
    repeat' split
    all_goals simp [hcandidate]

theorem marketHint_eq_some {policyAsset : AssetId} {entry : TxOut × ℕ}
    {found : ℕ × MarketRecoveryHint} (hfound : marketHint policyAsset entry = some found) :
    ∃ payload, validateRecoveryTxout entry.1 policyAsset = .ok payload ∧
      payload.head? = some marketV1Tag ∧ MarketRecoveryHint.decode payload = .ok found.2 ∧
      found.1 = entry.2 := by
  unfold marketHint at hfound
  split at hfound
  · cases hfound
  · next payload hpayload =>
    split at hfound
    · next htag =>
      split at hfound
      · next hint hdecode =>
        cases hfound
        exact ⟨payload, hpayload, htag, hdecode, rfl⟩
      · cases hfound
    · cases hfound

/-- A hint which can be resolved on the network is reported by the scan. -/
theorem mem_scannedHints_of_marketHints {index : ℕ} {hint : MarketRecoveryHint}
    {params : BinaryMarketParams}
    (hhint : (index, hint) ∈ marketHints transaction interpreter.policyAsset)
    (hmatches : marketHintMatches hint params interpreter.network interpreter.policyAsset = true) :
    ∃ payload, ⟨index, .binaryMarketV1, payload, none⟩ ∈
      scannedHints crypto interpreter context transaction := by
  obtain ⟨entry, hentry, hhint⟩ := List.mem_filterMap.mp hhint
  obtain ⟨payload, hpayload, htag, hdecode, rfl⟩ := marketHint_eq_some hhint
  have hparse : parseRecoveryScript entry.1.scriptPubkey = .ok payload := by
    simp only [validateRecoveryTxout, bind_eq_ok] at hpayload
    exact hpayload.choose_spec.2
  have hnetwork : ¬(hint.collateral = .liquidMainnetUsdt ∧ interpreter.network ≠ .liquid) := by
    rintro ⟨husdt, hother⟩
    simp [marketHintMatches, husdt, resolveCollateral, hother] at hmatches
  have hvalid : validateHint entry.1 payload interpreter.network interpreter.policyAsset =
      .ok () := by
    simp only [validateHint, bind_eq_ok, mapError_eq_ok, require_eq_ok]
    exact ⟨payload, hpayload, hint, hdecode, hnetwork⟩
  refine ⟨payload, List.mem_map.mpr ⟨⟨⟨context.position, entry.2⟩, crypto.txid transaction,
    .binaryMarketV1, payload⟩, ?_, rfl⟩⟩
  obtain ⟨before, after, hsplit⟩ := List.append_of_mem hentry
  rw [scanTransactionHints, hsplit, List.foldl_append, List.foldl_cons]
  apply foldl_scanOutput_candidates_subset
  simp [scanOutput, hparse, recognizedFamily, htag, hvalid]

theorem verifyCandidate_hint {location : Option RecoveryHintLocation}
    (hcandidate : verifyCandidate crypto interpreter context transaction none none =
      some (record, location)) :
    ∃ index payload, location = some ⟨context.position, index⟩ ∧
      ⟨index, .binaryMarketV1, payload, none⟩ ∈
        scannedHints crypto interpreter context transaction := by
  obtain ⟨verified, hverified, -, rfl⟩ := verifyCandidate_eq_some.mp hcandidate
  simp only [verifyBinaryMarketCreation, bind_eq_ok, require_eq_ok, pure_eq_ok] at hverified
  obtain ⟨params, -, _, -, _, -, _, -, _, -, _, hhint, _, -, rfl⟩ := hverified
  simp only [true_and, not_not] at hhint
  obtain ⟨index, hindex⟩ := List.length_eq_one_iff.mp hhint
  obtain ⟨⟨i, hint⟩, hmem, rfl⟩ := List.mem_map.mp (hindex ▸ List.mem_singleton_self index)
  obtain ⟨hmarket, hmatches⟩ := List.mem_filter.mp hmem
  obtain ⟨payload, hscanned⟩ := mem_scannedHints_of_marketHints hmarket hmatches
  exact ⟨i, payload, by rw [hindex], hscanned⟩

/-- Discovery never stops the indexing of a block whose contracts are new.  It
creates every market which verifies from its hint or from a retained
declaration, whatever else was declared, and each of them once; and a market
verifies from its hint only when the scan accepts that hint. -/
theorem discover_complete (hdistinct : CandidatesDistinct crypto interpreter context transaction)
    (hnew : NewTo crypto context transaction) :
    (∃ created hints, discover crypto interpreter context transaction = .ok (created, hints) ∧
      (created.map ContractRecord.contractId).Nodup ∧
      ∀ record, record ∈ created ↔ Candidate crypto interpreter context transaction record) ∧
    ∀ record location, verifyCandidate crypto interpreter context transaction none none =
        some (record, location) →
      ∃ index payload, location = some ⟨context.position, index⟩ ∧
        ⟨index, .binaryMarketV1, payload, none⟩ ∈
          scannedHints crypto interpreter context transaction := by
  refine ⟨?_, fun record location => verifyCandidate_hint⟩
  have hnone : Found crypto interpreter context transaction [] := ⟨by simp, by simp⟩
  obtain ⟨retained, hretained, hfound, hmem⟩ :=
    discoverRetained_found hdistinct hnew (List.Subset.refl _) hnone
  rw [discover, hretained]
  cases hcandidate : verifyCandidate crypto interpreter context transaction none none with
  | none =>
    refine ⟨retained, scannedHints crypto interpreter context transaction, ?_, hfound.ids, ?_⟩
    · simp [discoverHinted, hcandidate]
    · simp [hmem, Candidate, hcandidate]
  | some candidate =>
    obtain ⟨candidate, location⟩ := candidate
    obtain ⟨index, payload, rfl, hscanned⟩ := verifyCandidate_hint hcandidate
    obtain ⟨created, hretain, hcreated, hcreatedMem⟩ :=
      retainCanonicalCreation_found hdistinct hnew hfound (.inl ⟨_, hcandidate⟩)
    obtain ⟨hints, hhints⟩ := associateHint_isSome candidate.contractId ⟨_, hscanned, rfl⟩
    have hany : (scannedHints crypto interpreter context transaction).any
        (fun hint => hint.family = .binaryMarketV1) = true :=
      List.any_eq_true.mpr ⟨_, hscanned, by simp⟩
    refine ⟨created, hints, (if_pos hany).trans ?_, hcreated.ids, ?_⟩
    · simp [discoverHinted, hcandidate, hretain, hhints, okOr]
    · simp [hcreatedMem, hmem, Candidate, hcandidate, or_comm, eq_comm]

/-- The first block above the checkpoint, with the announced market declared. -/
def declaredContext : InterpretationContext where
  store := .initial sampleAnchor 0
  anchor := ⟨1, 101⟩
  position := ⟨1, 0⟩
  priorTransactions := []
  retainedDeclarations := [⟨⟨⟨11, 0⟩⟩, sampleParams⟩]
  mode := .canonical

theorem discover_complete_declared :
    ∃ created hints record, discover sampleCrypto ⟨.elementsRegtest, 1⟩ declaredContext
        announcedCreation = .ok (created, hints) ∧
      (created.map ContractRecord.contractId).Nodup ∧ record ∈ created ∧
      record.params = sampleParams := by
  have hverifies : ∀ entry ∈ [(none, none), (some sampleParams, some ⟨⟨11, 0⟩⟩)],
      (verifyCandidate sampleCrypto ⟨.elementsRegtest, 1⟩ declaredContext announcedCreation
        entry.1 entry.2).map (fun found => found.1.params) = some sampleParams := by
    decide +kernel
  have hparams : ∀ record, Candidate sampleCrypto ⟨.elementsRegtest, 1⟩ declaredContext
      announcedCreation record → record.params = sampleParams := by
    rintro record (⟨_, hcandidate⟩ | ⟨declaration, hdeclared, _, hcandidate⟩)
    · have hfound := hverifies _ List.mem_cons_self
      rw [hcandidate] at hfound
      exact Option.some.inj hfound
    · cases List.mem_singleton.mp hdeclared
      have hfound := hverifies _ (List.mem_cons_of_mem _ List.mem_cons_self)
      rw [hcandidate] at hfound
      exact Option.some.inj hfound
  have hnew : NewTo sampleCrypto declaredContext announcedCreation := by
    intro contractId _
    have habsent : (Store.initial sampleAnchor 0).contract contractId = none :=
      congrArg (Option.map _) (Table.row_empty contractId)
    exact congrArg Except.ok habsent
  have hdistinct : CandidatesDistinct sampleCrypto ⟨.elementsRegtest, 1⟩ declaredContext
      announcedCreation := by
    rintro _ ⟨record, hrecord, rfl⟩ _ ⟨record', hrecord', rfl⟩ -
    rw [hparams record hrecord, hparams record' hrecord']
  obtain ⟨⟨created, hints, hdiscover, hids, hmem⟩, -⟩ := discover_complete hdistinct hnew
  obtain ⟨⟨record, location⟩, hrecord, hsame⟩ :=
    Option.map_eq_some_iff.mp (hverifies _ List.mem_cons_self)
  exact ⟨created, hints, record, hdiscover, hids, (hmem record).mpr (.inl ⟨location, hrecord⟩),
    hsame⟩

end DeadcatInterpreter

end DeadcatNode
