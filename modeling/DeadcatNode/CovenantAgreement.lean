import DeadcatNode.BinaryMarketCovenant
import DeadcatNode.MarketChain

/-!
# The covenant and the interpreter

The covenant program accepts the inputs of a market exactly when they make a
market transition.  Its checks are restated one by one in the terms of the
transition relation, with which the interpreter was compared before.
-/

namespace DeadcatNode

open Checked

/-- How the world of the covenant program is tied to the one of the
interpreter: the outputs it sees are the live ones, its slot scripts are the
compiled ones, and no script of the transaction collides with them. -/
structure CovenantContext (crypto : MarketCrypto) (params : BinaryMarketParams)
    (live : BinaryMarketLiveOutputs) (env : CovenantEnv) : Prop where
  spends : ∀ (index : ℕ) (input : TxIn) (slot : BinaryMarketSlot)
    (tracked : TrackedContractOutput),
    env.transaction.input[index]? = some input →
    live.forSlot slot = some tracked →
    input.previousOutput = tracked.outpoint → env.utxos[index]? = some tracked.txout
  slots : ∀ slot : BinaryMarketSlot,
    env.scriptForSlot slot.tag = crypto.scriptHash (crypto.slotScript params slot)
  burn : crypto.scriptHash burnScript = Covenant.burnScriptHash
  slotCollision : ∀ output ∈ env.transaction.output, ∀ slot, crypto.scriptHash output.scriptPubkey =
      crypto.scriptHash (crypto.slotScript params slot) →
    output.scriptPubkey = crypto.slotScript params slot
  burnCollision : ∀ output ∈ env.transaction.output,
    crypto.scriptHash output.scriptPubkey = crypto.scriptHash burnScript →
    output.scriptPubkey = burnScript

/-- A reissuance carries no inflation keys. -/
def KeylessReissuance (transaction : Transaction) : Prop :=
  ∀ input ∈ transaction.input, Covenant.isReissuance input.assetIssuance = true →
    input.assetIssuance.inflationKeys = .null

namespace Covenant

variable {crypto : MarketCrypto} {compiled : CompiledBinaryMarket} {live : BinaryMarketLiveOutputs}
  {env : CovenantEnv} {side : RtSide} {u : Unit} {params : BinaryMarketParams} {index : ℕ}
  {asset : AssetId} {amount : ℕ}

/-! ## Jets -/

@[simp] theorem assertion_eq_ok {condition : Prop} [Decidable condition]
    : assertion condition = .ok u ↔ condition := require_eq_ok

@[simp] theorem unwrap_eq_ok {α : Type} {value : Option α} {a : α} :
    unwrap value = .ok a ↔ value = some a := okOr_eq_ok

@[simp] theorem unwrapLeft_eq_ok {α β : Type} {value : α ⊕ β} {a : α} :
    unwrapLeft value = .ok a ↔ value = .inl a := by
  cases value <;> simp [unwrapLeft]

@[simp] theorem unwrapRight_eq_ok {α β : Type} {value : α ⊕ β} {b : β} :
    unwrapRight value = .ok b ↔ value = .inr b := by
  cases value <;> simp [unwrapRight]

theorem unwrap_checkedAdd {w a b c : ℕ} :
    unwrap (checkedAdd w a b) = .ok c ↔ c = a + b ∧ a + b < 2 ^ w := by
  rw [unwrap_eq_ok, checkedAdd_eq_some]
  constructor <;> rintro ⟨rfl, hlt⟩ <;> exact ⟨rfl, hlt⟩

theorem ensureOutputScript_eq_ok {script : Script}
    (hcollision : ∀ output ∈ env.transaction.output,
      crypto.scriptHash output.scriptPubkey = crypto.scriptHash script →
      output.scriptPubkey = script) :
    ensureOutputScript crypto env index (crypto.scriptHash script) = .ok u ↔
      ∃ txout, env.transaction.output[index]? = some txout ∧ txout.scriptPubkey = script := by
  simp only [ensureOutputScript, outputScriptHash, bind_eq_ok, unwrap_eq_ok,
    Option.map_eq_some_iff, assertion_eq_ok]
  constructor
  · rintro ⟨_, ⟨txout, hat, rfl⟩, hhash⟩
    exact ⟨txout, hat, hcollision txout (List.mem_of_getElem? hat) hhash⟩
  · rintro ⟨txout, hat, hscript⟩
    exact ⟨_, ⟨txout, hat, rfl⟩, by rw [hscript]⟩

theorem ensureOutputScript_slot (hcontext : CovenantContext crypto params live env)
    (slot : BinaryMarketSlot) :
    ensureOutputScript crypto env index (env.scriptForSlot slot.tag) = .ok u ↔
      ∃ txout, env.transaction.output[index]? = some txout ∧
        txout.scriptPubkey = crypto.slotScript params slot := by
  rw [hcontext.slots]
  exact ensureOutputScript_eq_ok fun output hmem => hcontext.slotCollision output hmem slot

theorem ensureBurnScript_eq_ok (hcontext : CovenantContext crypto params live env) :
    ensureBurnScript crypto env index = .ok u ↔
      ∃ txout, env.transaction.output[index]? = some txout ∧ txout.scriptPubkey = burnScript := by
  rw [ensureBurnScript, ← hcontext.burn]
  exact ensureOutputScript_eq_ok hcontext.burnCollision

/-! ## Amounts -/

theorem asset1_eq_explicit {asset : Confidential.Asset} {id : AssetId} :
    asset1 asset = some (.inr id) ↔ asset = .explicit id := by
  cases asset <;> simp [asset1]

theorem amount1_eq_explicit {value : Confidential.Value} :
    amount1 value = some (.inr amount) ↔ value = .explicit amount := by
  cases value <;> simp [amount1]

theorem asset1_eq_confidential {asset : Confidential.Asset} {commitment : CompressedCommitment} :
    asset1 asset = some (.inl commitment) ↔
      asset = .confidential commitment.parity commitment.x := by
  cases asset with
  | confidential odd x =>
    simp only [asset1, Option.some.injEq, Sum.inl.injEq, Confidential.Asset.confidential.injEq]
    constructor
    · rintro rfl
      exact ⟨rfl, rfl⟩
    · rintro ⟨rfl, rfl⟩
      rfl
  | null | explicit => simp [asset1]

theorem amount1_eq_confidential {value : Confidential.Value} {commitment : CompressedCommitment} :
    amount1 value = some (.inl commitment) ↔
      value = .confidential commitment.parity commitment.x := by
  cases value with
  | confidential odd x =>
    simp only [amount1, Option.some.injEq, Sum.inl.injEq, Confidential.Value.confidential.injEq]
    constructor
    · rintro rfl
      exact ⟨rfl, rfl⟩
    · rintro ⟨rfl, rfl⟩
      rfl
  | null | explicit => simp [amount1]

theorem explicitAssetValue_eq_some {txout : TxOut} :
    explicitAssetValue txout = some (asset, amount) ↔
      txout.asset = .explicit asset ∧ txout.value = .explicit amount := by
  obtain ⟨txAsset, value, nonce, script, witness⟩ := txout
  cases txAsset <;> cases value <;> simp [explicitAssetValue]

theorem explicitAmounts_eq_ok {output : Option TxOut} :
    explicitAmounts (output.bind outputAmounts) = .ok (asset, amount) ↔
      ∃ txout, output = some txout ∧ explicitAssetValue txout = some (asset, amount) := by
  simp only [explicitAmounts, outputAmounts, bind_eq_ok, unwrap_eq_ok,
    Option.bind_eq_bind, Option.bind_eq_some_iff, Option.pure_def,
    Option.some.injEq, unwrapRight_eq_ok, pure_eq_ok, Prod.exists,
    Prod.mk.injEq, explicitAssetValue_eq_some]
  constructor
  · rintro ⟨_, _, ⟨txout, hout, _, hasset, _, hamount, rfl, rfl⟩, _, rfl, _, rfl, rfl, rfl⟩
    exact ⟨txout, hout, asset1_eq_explicit.mp hasset, amount1_eq_explicit.mp hamount⟩
  · rintro ⟨txout, hout, hasset, hamount⟩
    exact ⟨_, _, ⟨txout, hout, _, asset1_eq_explicit.mpr hasset, _,
      amount1_eq_explicit.mpr hamount, rfl, rfl⟩, _, rfl, _, rfl, rfl, rfl⟩

theorem getOutputExplicit_eq_ok : getOutputExplicit env index = .ok (asset, amount) ↔
      ∃ txout, env.transaction.output[index]? = some txout ∧
        explicitAssetValue txout = some (asset, amount) :=
  explicitAmounts_eq_ok

theorem ensureOutputExplicit_eq_ok : ensureOutputExplicit env index asset amount = .ok u ↔
      ∃ txout, env.transaction.output[index]? = some txout ∧
        explicitAssetValue txout = some (asset, amount) := by
  simp only [ensureOutputExplicit, bind_eq_ok, Prod.exists, assertion_eq_ok,
    getOutputExplicit_eq_ok]
  constructor
  · rintro ⟨_, _, hout, -, rfl, rfl⟩
    exact hout
  · intro hout
    exact ⟨asset, amount, hout, (), rfl, rfl⟩

theorem lockedOutput_bind (hcontext : CovenantContext crypto params live env)
    (slot : BinaryMarketSlot) (tag : ℕ) (htag : slot.tag = tag)
    {α : Type} {value : α} {rest : Simplicity α} :
    (do
      ensureOutputExplicit env index asset amount
      ensureOutputScript crypto env index (env.scriptForSlot tag)
      rest) = .ok value ↔
      ExplicitAt env.transaction index (crypto.slotScript params slot) asset
        amount ∧ rest = .ok value := by
  subst htag
  simp only [bind_eq_ok, ensureOutputExplicit_eq_ok, ensureOutputScript_slot hcontext slot]
  constructor
  · rintro ⟨-, ⟨txout, hout, hvalue⟩, -, ⟨txout', hout', hscript⟩, hrest⟩
    cases hout.symm.trans hout'
    exact ⟨⟨txout, hout, hscript, hvalue⟩, hrest⟩
  · rintro ⟨⟨txout, hout, hscript, hvalue⟩, hrest⟩
    exact ⟨(), ⟨txout, hout, hvalue⟩, (), ⟨txout, hout, hscript⟩, hrest⟩

theorem explicitBurnAmount_eq_ok (hcontext : CovenantContext crypto params live env) :
    explicitBurnAmount crypto env index asset = .ok amount ↔
      amount ≠ 0 ∧ ExplicitAt env.transaction index burnScript asset amount := by
  simp only [explicitBurnAmount, ensureNonzero, bind_eq_ok, Prod.exists,
    getOutputExplicit_eq_ok, assertion_eq_ok, pure_eq_ok, ensureBurnScript_eq_ok hcontext]
  constructor
  · rintro ⟨_, _, ⟨txout, hout, hvalue⟩, -, rfl, -, hne, -, ⟨txout', hout', hscript⟩, rfl⟩
    cases hout.symm.trans hout'
    exact ⟨hne, txout, hout, hscript, hvalue⟩
  · rintro ⟨hne, txout, hout, hscript, hvalue⟩
    exact ⟨asset, amount, ⟨txout, hout, hvalue⟩, (), rfl, (), hne, (), ⟨txout, hout, hscript⟩, rfl⟩

theorem marketTokenBurn_eq_ok
    (hcontext : CovenantContext crypto params live env) (hparams : compiled.params = params)
    (htokens : params.yesTokenAssetId ≠ params.noTokenAssetId) {yes : Bool} :
    marketTokenBurn crypto compiled env index = .ok (yes, amount) ↔
      amount ≠ 0 ∧ ExplicitAt env.transaction index burnScript
        (tokenAssetId params yes) amount := by
  subst hparams
  simp only [marketTokenBurn, ensureNonzero, bind_eq_ok, Prod.exists,
    getOutputExplicit_eq_ok, assertion_eq_ok, pure_eq_ok, Prod.mk.injEq,
    ensureBurnScript_eq_ok hcontext]
  constructor
  · rintro ⟨asset, _, ⟨txout, hout, hvalue⟩, -, hasset, -, hne, -, ⟨txout',
      hout', hscript⟩, rfl, rfl⟩
    cases hout.symm.trans hout'
    refine ⟨hne, txout, hout, hscript, ?_⟩
    rw [hvalue, tokenAssetId, ← hasset]
  · rintro ⟨hne, txout, hout, hscript, hvalue⟩
    refine ⟨_, amount, ⟨txout, hout, hvalue⟩, (), ?_, (), hne, (), ⟨txout, hout, hscript⟩, ?_, rfl⟩
    · cases yes <;> simp [tokenAssetId]
    · cases yes <;> simp [tokenAssetId, htokens.symm]

theorem ensureInputExplicit_eq_ok
    {slot : BinaryMarketSlot} {found : ℕ} {tracked : TrackedContractOutput}
    (hheld : CollateralHeld crypto params slot amount tracked)
    (hutxo : env.utxos[index]? = some tracked.txout) :
    ensureInputExplicit env index params.collateralAssetId = .ok found ↔ found = amount := by
  have hamounts := explicitAmounts_eq_ok.mpr ⟨_, hutxo, hheld.amount⟩
  simp only [ensureInputExplicit, getInputExplicit, inputAmount, hamounts,
    ok_bind, bind_eq_ok, assertion_eq_ok, pure_eq_ok]
  constructor
  · rintro ⟨-, -, rfl⟩
    rfl
  · rintro rfl
    exact ⟨(), trivial, rfl⟩

/-! ## Issuances -/

theorem ensureNoIssuance_eq_ok :
    ensureNoIssuance crypto env index = .ok u ↔ NoIssuanceAt env.transaction index := by
  simp only [ensureNoIssuance, issuanceAssetAmount, issuanceTokenAmount,
    issuanceEntropy, issuanceField, bind_eq_ok, unwrap_eq_ok, assertion_eq_ok,
    Option.map_eq_some_iff, NoIssuanceAt]
  constructor
  · rintro ⟨_, ⟨input, hat, hamount⟩, _, -, _, -, -, hnone, -⟩
    refine ⟨input, hat, ?_⟩
    subst hnone
    cases hissuance : input.hasIssuance with
    | false => rfl
    | true => simp [hissuance] at hamount
  · rintro ⟨input, hat, hquiet⟩
    exact ⟨none, ⟨input, hat, by simp [hquiet]⟩, none,
      ⟨input, hat, by simp [hquiet]⟩, none, ⟨input, hat, by simp [hquiet]⟩, (), rfl, (), rfl, rfl⟩

theorem abf_eq (leg : RtLeg) (side : RtSide) : (rtFactors leg side).abf =
      if decide (side = .a) = true then rtAbfA else rtAbfB := by
  cases side <;> cases leg <;> decide +kernel

theorem abf_ne_zero (leg : RtLeg) (side : RtSide) : (rtFactors leg side).abf ≠ 0 := by
  cases side <;> cases leg <;> decide +kernel

theorem ensureReissuance_eq_ok (hkeyless : KeylessReissuance env.transaction) (leg : RtLeg) :
    ensureReissuance crypto env index asset (rtAssetId params leg)
        (decide (side = .a)) = .ok amount ↔
      amount ≠ 0 ∧ ReissuedAt crypto params env.transaction index asset leg side
        amount := by
  simp only [ensureReissuance, issuanceAsset, issuanceToken, issuanceAssetAmount,
    issuanceTokenAmount, issuanceField, reissuanceBlinding, ensureNonzero,
    bind_eq_ok, unwrap_eq_ok, unwrapRight_eq_ok, assertion_eq_ok, pure_eq_ok,
    Option.map_eq_some_iff, ← abf_eq leg side]
  constructor
  · rintro ⟨_, ⟨input, hat, hasset⟩, asset', rfl, _, ⟨input₂, hat₂, htoken⟩,
      token', rfl, -, hsame, -, htokenEq, _, ⟨input₃, hat₃, hamount⟩, amount',
      rfl, _, rfl, _, -, _, -, _, -, -, -, _, ⟨input₄, hat₄, hblinding⟩, nonce,
      rfl, -, hnonce, -, hne, rfl⟩
    cases hat.symm.trans hat₂
    cases hat.symm.trans hat₃
    cases hat.symm.trans hat₄
    split_ifs at hasset hblinding with hissuance hreissuance
    rw [if_pos hissuance] at htoken hamount
    simp only [Option.some.injEq] at hasset htoken hamount hblinding
    have hkeys := hkeyless input (List.mem_of_getElem? hat) hreissuance.2
    refine ⟨hne, input, hat, Prod.ext (hasset.trans hsame)
      (htoken.trans htokenEq), hblinding.trans hnonce, ?_, hkeys⟩
    cases hvalue : input.assetIssuance.amount with
    | explicit value =>
      rw [hvalue] at hamount
      simpa [issuanceAmount1] using hamount
    | null =>
      rw [hvalue] at hamount
      exact absurd (Sum.inr.inj hamount).symm hne
    | confidential odd x =>
      rw [hvalue] at hamount
      simp [issuanceAmount1] at hamount
  · rintro ⟨hne, input, hat, hids, hnonce, hamount, hkeys⟩
    have hissuance : input.hasIssuance = true := by simp [TxIn.hasIssuance, hamount]
    have hreissuance : isReissuance input.assetIssuance = true := by
      simp [isReissuance, hnonce, abf_ne_zero]
    refine ⟨_, ⟨input, hat, if_pos hissuance⟩, _, rfl, _,
      ⟨input, hat, if_pos hissuance⟩, _, rfl, (), by rw [hids], (), by rw [hids],
      _, ⟨input, hat, if_pos hissuance⟩, _, rfl, _, ?_, _,
      ⟨input, hat, if_pos hissuance⟩, _, rfl, 0, ?_, (), rfl, _,
      ⟨input, hat, if_pos ⟨hissuance, hreissuance⟩⟩, _, rfl, (), hnonce, (), hne, rfl⟩
    · rw [hamount]
      rfl
    · rw [if_pos hreissuance]

/-! ## Reissuance tokens -/

theorem confidentialAmounts_eq_ok {output : Option TxOut} {asset value : CompressedCommitment} :
    confidentialAmounts (output.bind outputAmounts) = .ok (asset, value) ↔
      ∃ txout, output = some txout ∧ txout.asset = .confidential asset.parity asset.x ∧
        txout.value = .confidential value.parity value.x := by
  simp only [confidentialAmounts, outputAmounts, bind_eq_ok, unwrap_eq_ok,
    Option.bind_eq_bind, Option.bind_eq_some_iff, Option.pure_def,
    Option.some.injEq, unwrapLeft_eq_ok, pure_eq_ok, Prod.exists, Prod.mk.injEq]
  constructor
  · rintro ⟨_, _, ⟨txout, hout, _, hasset, _, hvalue, rfl, rfl⟩, _, rfl, _, rfl, rfl, rfl⟩
    exact ⟨txout, hout, asset1_eq_confidential.mp hasset, amount1_eq_confidential.mp hvalue⟩
  · rintro ⟨txout, hout, hasset, hvalue⟩
    exact ⟨_, _, ⟨txout, hout, _, asset1_eq_confidential.mpr hasset, _,
      amount1_eq_confidential.mpr hvalue, rfl, rfl⟩, _, rfl, _, rfl, rfl, rfl⟩

def FlippedAt (crypto : MarketCrypto) (params : BinaryMarketParams)
    (transaction : Transaction) (index : ℕ) (leg : RtLeg) (side : RtSide) :
    Prop :=
  ∃ txout, transaction.output[index]? = some txout ∧
    crypto.commitments (rtAssetId params leg) (rtFactors leg side) = some (txout.asset, txout.value)

theorem getOutputConfidential_eq_ok (hvalid : compiled.Valid crypto) (leg : RtLeg) :
    getOutputConfidential env index = .ok ((compiled.rt leg).asset side, (compiled.rt leg).value) ↔
      FlippedAt crypto compiled.params env.transaction index leg side := by
  simp only [getOutputConfidential, outputAmount, confidentialAmounts_eq_ok,
    FlippedAt, hvalid.commitments leg side, Option.some.injEq, Prod.mk.injEq]
  constructor
  · rintro ⟨txout, hout, hasset, hvalue⟩
    exact ⟨txout, hout, hasset.symm, hvalue.symm⟩
  · rintro ⟨txout, hout, hasset, hvalue⟩
    exact ⟨txout, hout, hasset.symm, hvalue.symm⟩

section

variable {leg : RtLeg} {slot : BinaryMarketSlot}
  {tracked : TrackedContractOutput} {inputIndex outputIndex : ℕ} {isA : Bool}

theorem getInputConfidential_held (hvalid : compiled.Valid crypto)
    (hheld : RtHeld crypto compiled.params leg slot side tracked)
    (hutxo : env.utxos[inputIndex]? = some tracked.txout) :
    getInputConfidential env inputIndex =
      .ok ((compiled.rt leg).asset side, (compiled.rt leg).value) := by
  have hcommitted := (inferSide_eq_some.mp hheld.side).1
  rw [hvalid.commitments leg side] at hcommitted
  simp only [Option.some.injEq, Prod.mk.injEq] at hcommitted
  exact confidentialAmounts_eq_ok.mpr ⟨_, hutxo, hcommitted.1.symm, hcommitted.2.symm⟩

theorem asset_flip_ne (hvalid : compiled.Valid crypto)
    (hheld : RtHeld crypto compiled.params leg slot side tracked) :
    (compiled.rt leg).asset side.flip ≠ (compiled.rt leg).asset side := by
  obtain ⟨hthis, other, hother, hne⟩ := inferSide_eq_some.mp hheld.side
  rw [hvalid.commitments leg side] at hthis
  rw [hvalid.commitments leg side.flip] at hother
  intro heq
  rw [heq] at hother
  exact hne (Option.some.inj (hother.symm.trans hthis))

theorem verifyRtFlip_eq_ok (hvalid : compiled.Valid crypto)
    (hheld : RtHeld crypto compiled.params leg slot side tracked)
    (hutxo : env.utxos[inputIndex]? = some tracked.txout) :
    verifyRtFlip env inputIndex outputIndex (compiled.rt leg) = .ok isA ↔
      isA = decide (side = .a) ∧ FlippedAt crypto compiled.params env.transaction outputIndex leg
          side.flip := by
  have hinput := getInputConfidential_held hvalid hheld hutxo
  have hne := asset_flip_ne hvalid hheld
  rw [← getOutputConfidential_eq_ok hvalid leg]
  cases side with
  | a =>
    change (compiled.rt leg).assetB ≠ (compiled.rt leg).assetA at hne
    change _ = Except.ok ((compiled.rt leg).assetA, _) at hinput
    simp only [verifyRtFlip, hinput, ok_bind, bind_eq_ok, Prod.exists, if_true,
      assertion_eq_ok, pure_eq_ok, RtSide.flip, RtCommitmentArguments.asset]
    constructor
    · rintro ⟨asset, value, hout, -, -, -, rfl, -, -, -, rfl, rfl⟩
      exact ⟨rfl, hout⟩
    · rintro ⟨rfl, hout⟩
      exact ⟨_, _, hout, (), trivial, (), rfl, (), hne.symm, (), rfl, rfl⟩
  | b =>
    change (compiled.rt leg).assetA ≠ (compiled.rt leg).assetB at hne
    change _ = Except.ok ((compiled.rt leg).assetB, _) at hinput
    simp only [verifyRtFlip, hinput, ok_bind, bind_eq_ok, Prod.exists,
      if_neg hne.symm, assertion_eq_ok, pure_eq_ok, RtSide.flip, RtCommitmentArguments.asset]
    constructor
    · rintro ⟨asset, value, hout, -, -, -, rfl, -, -, -, rfl, rfl⟩
      exact ⟨by simp, hout⟩
    · rintro ⟨rfl, hout⟩
      exact ⟨_, _, hout, (), trivial, (), rfl, (), trivial, (), rfl, by simp⟩

theorem rtFlip_locked {check : Simplicity Unit} {script : Script} (hvalid : compiled.Valid crypto)
    (hheld : RtHeld crypto compiled.params leg slot side tracked)
    (hutxo : env.utxos[inputIndex]? = some tracked.txout)
    (hcheck : ∀ u, check = .ok u ↔ ∃ txout, env.transaction.output[outputIndex]? = some txout ∧
      txout.scriptPubkey = script) :
    (do
      let isA ← verifyRtFlip env inputIndex outputIndex (compiled.rt leg)
      check
      pure isA) = .ok isA ↔
      isA = decide (side = .a) ∧
        RtAt crypto compiled.params env.transaction outputIndex script leg side.flip := by
  simp only [bind_eq_ok, pure_eq_ok, verifyRtFlip_eq_ok hvalid hheld hutxo, hcheck]
  constructor
  · rintro ⟨_, ⟨rfl, txout, hout, hside⟩, -, ⟨txout', hout', hscript⟩, rfl⟩
    cases hout.symm.trans hout'
    exact ⟨rfl, txout, hout, hscript, hside⟩
  · rintro ⟨rfl, txout, hout, hscript, hside⟩
    exact ⟨_, ⟨rfl, txout, hout, hside⟩, (), ⟨txout, hout, hscript⟩, rfl⟩

end

/-! ## Arithmetic and authorization -/

theorem collateralForPairs_eq_ok (hvalid : compiled.Valid crypto) {pairs : ℕ} :
    collateralForPairs compiled pairs = .ok amount ↔
      amount = pairs * (2 * compiled.params.basePayout) ∧
        pairs * (2 * compiled.params.basePayout) < 2 ^ 64 := by
  have hdouble := hvalid.double_basePayout_lt
  simp only [collateralForPairs, collateralPerPair, safeMultiply, bind_eq_ok,
    unwrap_eq_ok, checkedMul_eq_some]
  constructor
  · rintro ⟨_, ⟨rfl, -⟩, rfl, hlt⟩
    rw [Nat.mul_comm 2]
    exact ⟨rfl, hlt⟩
  · rintro ⟨rfl, hlt⟩
    rw [Nat.mul_comm 2] at hlt hdouble
    exact ⟨_, ⟨rfl, hdouble⟩, by rw [Nat.mul_comm 2], by
      rw [Nat.mul_comm 2]; exact hlt⟩

variable {α : Type} {value : α} {rest : ℕ → Simplicity α}

theorem bounded_bind {β : Type} {read : Simplicity β} {expected : β} {bounded : Prop}
    {rest : β → Simplicity α} (hread : ∀ b, read = .ok b ↔ b = expected ∧ bounded) :
    (read >>= rest) = .ok value ↔ bounded ∧ rest expected = .ok value := by
  simp only [bind_eq_ok, hread, and_assoc, exists_eq_left]

theorem collateralForPairs_bind (hvalid : compiled.Valid crypto) {pairs : ℕ} :
    (collateralForPairs compiled pairs >>= rest) = .ok value ↔
      pairs * (2 * compiled.params.basePayout) < 2 ^ 64 ∧
        rest (pairs * (2 * compiled.params.basePayout)) = .ok value :=
  bounded_bind fun _ => collateralForPairs_eq_ok hvalid

theorem checkLockHeight_eq_ok (hvalid : compiled.Valid crypto) :
    checkLockHeight env compiled.params.expiryHeight = .ok u ↔
      ExpiryLocked compiled.params env.transaction := by
  have hexpiry := hvalid.expiry
  rw [checkLockHeight, assertion_eq_ok, lockHeight, ExpiryLocked]
  split
  · next hlocked => exact ⟨fun hle => ⟨hlocked.2, hle, hlocked.1⟩, fun h => h.2.1⟩
  · next hopen =>
    constructor
    · intro hle
      omega
    · rintro ⟨hheight, -, hsequence⟩
      exact absurd ⟨hsequence, hheight⟩ hopen

theorem verifyOracle_eq_ok {outcomeYes : Bool} {signature : ℕ} :
    verifyOracle crypto compiled outcomeYes signature = .ok u ↔
      OracleSigned crypto compiled.params outcomeYes signature :=
  assertion_eq_ok

/-! ## Transitions of a trading market -/

theorem exists_rest_of_mul {n pairs left unit : ℕ} (hunit : 0 < unit)
    (hsum : n * unit = pairs * unit + left) : ∃ rest, n = rest + pairs ∧ left = rest * unit := by
  have hle : pairs ≤ n := Nat.le_of_mul_le_mul_right (by omega : pairs * unit ≤ n * unit) hunit
  obtain ⟨rest, rfl⟩ := Nat.exists_eq_add_of_le hle
  refine ⟨rest, Nat.add_comm _ _, ?_⟩
  rw [Nat.add_mul] at hsum
  omega

def slotOutputs (places : List (ℕ × BinaryMarketSlot)) : List SlotOutput :=
  places.map fun place => (place.1, place.2.tag)

/-- The outputs bound to slots are those of a transition. -/
abbrev Binds (crypto : MarketCrypto) (params : BinaryMarketParams) (transaction : Transaction)
    (side : RtSide) (inputBase : ℕ) (state : BinaryMarketState)
    (action : BinaryMarketCoordinatorAction) (outputs : List SlotOutput) : Prop :=
  ∃ after places, MarketTransition crypto params transaction side inputBase state action
    after places ∧ outputs = slotOutputs places

section

variable {inputBase base : ℕ} {yesSlot noSlot : BinaryMarketSlot} {yes no : TrackedContractOutput}
  {outputs : List SlotOutput} (hvalid : compiled.Valid crypto)
  (hcontext : CovenantContext crypto compiled.params live env)
  (hcurrent : env.currentIndex = inputBase)
  (hyes : RtHeld crypto compiled.params .yes yesSlot side yes)
  (hno : RtHeld crypto compiled.params .no noSlot side no)
  (hyesUtxo : env.utxos[inputBase]? = some yes.txout)
  (hnoUtxo : env.utxos[inputBase + 1]? = some no.txout) (hsecond : inputBase + 1 < 2 ^ 32)
  (hkeyless : KeylessReissuance env.transaction)

theorem sameSide_bind {yesFlip noFlip : Simplicity Bool} {isA : Bool}
    {yesFlipped noFlipped : Prop} {rest : Bool → Bool → Simplicity α}
    (hyesFlip : ∀ found, yesFlip = .ok found ↔ found = isA ∧ yesFlipped)
    (hnoFlip : ∀ found, noFlip = .ok found ↔ found = isA ∧ noFlipped) :
    (do
      let yesIsA ← yesFlip
      let noIsA ← noFlip
      ensureSameRtSide yesIsA noIsA
      rest yesIsA noIsA) = .ok value ↔
      yesFlipped ∧ noFlipped ∧ rest isA isA = .ok value := by
  simp only [bind_eq_ok, hyesFlip, hnoFlip, ensureSameRtSide, assertion_eq_ok]
  constructor
  · rintro ⟨_, ⟨rfl, hyesAt⟩, _, ⟨rfl, hnoAt⟩, -, -, hrest⟩
    exact ⟨hyesAt, hnoAt, hrest⟩
  · rintro ⟨hyesAt, hnoAt, hrest⟩
    exact ⟨_, ⟨rfl, hyesAt⟩, _, ⟨rfl, hnoAt⟩, (), rfl, hrest⟩

include hvalid hcontext hyes hno hyesUtxo hnoUtxo in
theorem rtContinuations_bind
    (yesNext : BinaryMarketSlot) (yesTag : ℕ) (noNext : BinaryMarketSlot)
    (noTag : ℕ) (hyesTag : yesNext.tag = yesTag) (hnoTag : noNext.tag = noTag)
    (rest : Bool → Bool → Simplicity α) :
    (do
      let yesIsA ← ensureRtContinuation crypto env inputBase base compiled.yesRt yesTag
      let noIsA ← ensureRtContinuation crypto env (inputBase + 1) (base + 1) compiled.noRt noTag
      ensureSameRtSide yesIsA noIsA
      rest yesIsA noIsA) = .ok value ↔
      RtAt crypto compiled.params env.transaction base
          (crypto.slotScript compiled.params yesNext) .yes side.flip ∧
        RtAt crypto compiled.params env.transaction (base + 1)
          (crypto.slotScript compiled.params noNext) .no side.flip ∧
        rest (decide (side = .a)) (decide (side = .a)) = .ok value := by
  subst hyesTag hnoTag
  exact sameSide_bind
    (fun _ => rtFlip_locked hvalid hyes hyesUtxo fun _ => ensureOutputScript_slot hcontext yesNext)
    fun _ => rtFlip_locked hvalid hno hnoUtxo fun _ => ensureOutputScript_slot hcontext noNext

include hvalid hcontext hyes hno hyesUtxo hnoUtxo in
theorem rtBurns_bind (rest : Simplicity α) : (do
      let yesIsA ← ensureRtBurn crypto env inputBase base compiled.yesRt
      let noIsA ← ensureRtBurn crypto env (inputBase + 1) (base + 1) compiled.noRt
      ensureSameRtSide yesIsA noIsA
      rest) = .ok value ↔
      RtAt crypto compiled.params env.transaction base burnScript .yes side.flip ∧
        RtAt crypto compiled.params env.transaction (base + 1) burnScript .no
          side.flip ∧ rest = .ok value :=
  sameSide_bind
    (fun _ => rtFlip_locked hvalid hyes hyesUtxo fun _ => ensureBurnScript_eq_ok hcontext)
    fun _ => rtFlip_locked hvalid hno hnoUtxo fun _ => ensureBurnScript_eq_ok hcontext

theorem check_bind {check : Simplicity Unit}
    {passed : Prop} {rest : Simplicity α} (hcheck : ∀ u, check = .ok u ↔ passed) :
    (do check; rest) = .ok value ↔ passed ∧ rest = .ok value := by
  simp only [bind_eq_ok, hcheck, exists_const]

theorem assertion_bind {condition : Prop}
    [Decidable condition] {rest : Simplicity α} :
    (do assertion condition; rest) = .ok value ↔ condition ∧ rest = .ok value :=
  check_bind fun _ => assertion_eq_ok

theorem ensureNoIssuance_bind {rest : Simplicity α} :
    (do ensureNoIssuance crypto env index; rest) = .ok value ↔
      NoIssuanceAt env.transaction index ∧ rest = .ok value :=
  check_bind fun _ => ensureNoIssuance_eq_ok

theorem ensureInputExplicit_bind {slot : BinaryMarketSlot}
    {tracked : TrackedContractOutput}
    (hheld : CollateralHeld crypto params slot amount tracked)
    (hutxo : env.utxos[index]? = some tracked.txout) :
    (ensureInputExplicit env index params.collateralAssetId >>= rest) =
        .ok value ↔ rest amount = .ok value := by
  simp only [bind_eq_ok, ensureInputExplicit_eq_ok hheld hutxo, exists_eq_left]

theorem safeAdd_bind {a b : ℕ} :
    (safeAdd a b >>= rest) = .ok value ↔ a + b < 2 ^ 64 ∧ rest (a + b) = .ok value :=
  bounded_bind fun _ => unwrap_checkedAdd

theorem safeSubtract_bind {a b : ℕ} :
    (safeSubtract a b >>= rest) = .ok value ↔ ∃ left, a = b + left ∧ rest left = .ok value := by
  simp only [safeSubtract, bind_eq_ok, unwrap_eq_ok, checkedSub_eq_some]
  constructor
  · rintro ⟨left, ⟨-, hleft⟩, hrest⟩
    exact ⟨left, hleft, hrest⟩
  · rintro ⟨left, hleft, hrest⟩
    exact ⟨left, ⟨by omega, hleft⟩, hrest⟩

theorem sameAmount_bind {yesRead noRead : Simplicity ℕ}
    {yesAt noAt : ℕ → Prop}
    (hyesRead : ∀ pairs, yesRead = .ok pairs ↔ pairs ≠ 0 ∧ yesAt pairs)
    (hnoRead : ∀ pairs, noRead = .ok pairs ↔ pairs ≠ 0 ∧ noAt pairs) :
    (do
      let pairs ← yesRead
      let noPairs ← noRead
      assertion (pairs = noPairs)
      rest pairs) = .ok value ↔
      ∃ pairs, pairs ≠ 0 ∧ yesAt pairs ∧ noAt pairs ∧ rest pairs = .ok value := by
  simp only [bind_eq_ok, hyesRead, hnoRead, assertion_eq_ok]
  constructor
  · rintro ⟨pairs, ⟨hne, hyesAt⟩, _, ⟨-, hnoAt⟩, -, rfl, hrest⟩
    exact ⟨pairs, hne, hyesAt, hnoAt, hrest⟩
  · rintro ⟨pairs, hne, hyesAt, hnoAt, hrest⟩
    exact ⟨pairs, ⟨hne, hyesAt⟩, _, ⟨hne, hnoAt⟩, (), rfl, hrest⟩

theorem burns_bind
    (hcontext : CovenantContext crypto compiled.params live env)
    {yesBurn noBurn : ℕ} :
    (do
      let pairs ← explicitBurnAmount crypto env yesBurn compiled.params.yesTokenAssetId
      let noPairs ← explicitBurnAmount crypto env noBurn compiled.params.noTokenAssetId
      assertion (pairs = noPairs)
      rest pairs) = .ok value ↔
      ∃ pairs, pairs ≠ 0 ∧ ExplicitAt env.transaction yesBurn burnScript
          compiled.params.yesTokenAssetId pairs ∧
        ExplicitAt env.transaction noBurn burnScript
          compiled.params.noTokenAssetId pairs ∧ rest pairs = .ok value :=
  sameAmount_bind (fun _ => explicitBurnAmount_eq_ok hcontext)
    fun _ => explicitBurnAmount_eq_ok hcontext

theorem safeAdd32_bind {a b : ℕ} :
    (safeAdd32 a b >>= rest) = .ok value ↔ a + b < 2 ^ 32 ∧ rest (a + b) = .ok value :=
  bounded_bind fun _ => unwrap_checkedAdd

theorem ensureCurrentIndex_bind {rest : Simplicity α} :
    (do ensureCurrentIndex env inputBase; rest) = .ok value ↔
      env.currentIndex = inputBase ∧ rest = .ok value := by
  simp only [ensureCurrentIndex, bind_eq_ok, assertion_eq_ok, exists_const]

include hkeyless in
theorem reissuances_bind : (do
      let yesPairs ← ensureReissuance crypto env inputBase
        compiled.params.yesTokenAssetId compiled.params.yesReissuanceTokenId
        (decide (side = RtSide.a))
      let noPairs ← ensureReissuance crypto env (inputBase + 1)
        compiled.params.noTokenAssetId compiled.params.noReissuanceTokenId
        (decide (side = RtSide.a))
      assertion (yesPairs = noPairs)
      rest yesPairs) = .ok value ↔
      ∃ pairs, pairs ≠ 0 ∧ ReissuedAt crypto compiled.params env.transaction inputBase
          compiled.params.yesTokenAssetId .yes side pairs ∧
        ReissuedAt crypto compiled.params env.transaction (inputBase + 1)
          compiled.params.noTokenAssetId .no side pairs ∧ rest pairs = .ok value :=
  sameAmount_bind (fun _ => ensureReissuance_eq_ok hkeyless .yes)
    fun _ => ensureReissuance_eq_ok hkeyless .no

theorem cancellation_third (hok : cancellation crypto compiled env inputBase base = .ok outputs) :
    ∃ txout asset left, env.transaction.output[base + 2]? = some txout ∧
      explicitAssetValue txout = some (asset, left) := by
  unfold cancellation at hok
  simp only [safeAdd32_bind] at hok
  obtain ⟨-, -, -, -, hok⟩ := hok
  obtain ⟨⟨asset, left⟩, hread, -⟩ := bind_eq_ok.mp hok
  obtain ⟨txout, hout, hvalue⟩ := getOutputExplicit_eq_ok.mp hread
  exact ⟨txout, asset, left, hout, hvalue⟩

include hvalid hcontext hcurrent hyes hno hyesUtxo hnoUtxo hsecond

include hkeyless in
theorem initialIssuance_eq_ok : initialIssuance crypto compiled env inputBase base = .ok outputs ↔
      Binds crypto compiled.params env.transaction side inputBase (.trading 0) (.issue base)
        outputs := by
  unfold initialIssuance
  simp only [safeAdd32_bind, ensureCurrentIndex_bind, hcurrent, true_and,
    rtContinuations_bind hvalid hcontext hyes hno hyesUtxo hnoUtxo
      .unresolvedYesRt 2 .unresolvedNoRt 3 rfl rfl,
    reissuances_bind hkeyless, collateralForPairs_bind hvalid,
    lockedOutput_bind hcontext .unresolvedCollateral 4 rfl, pure_eq_ok]
  constructor
  · rintro ⟨-, hbase, hwindow, hyesAt, hnoAt, pairs, hpairs, hyesIssued, hnoIssued,
      hbound, hlocked, rfl⟩
    rw [← Nat.zero_add pairs] at hbound hlocked
    exact ⟨_, _, .issue hpairs hbound hyesIssued hnoIssued
      (fun hne => absurd rfl hne) hwindow ⟨hbase, hyesAt, hnoAt⟩ hlocked, rfl⟩
  · rintro ⟨after, places, hstep, rfl⟩
    generalize hdormant : BinaryMarketState.trading 0 = state at hstep
    cases hstep with
    | issue hpairs hbound hyesIssued hnoIssued hquiet hwindow htokens hlocked =>
      cases hdormant
      rw [Nat.zero_add] at hbound hlocked
      exact ⟨hsecond, htokens.1, hwindow, htokens.2.1, htokens.2.2, _, hpairs,
        hyesIssued, hnoIssued, hbound, hlocked, rfl⟩

theorem dormantSettlement_eq_ok {authorize : Simplicity Unit} {allowed : Prop}
    (hauthorize : ∀ u, authorize = .ok u ↔ allowed) :
    dormantSettlement crypto compiled env inputBase base authorize = .ok outputs ↔
      (∀ i ≤ 1, NoIssuanceAt env.transaction (inputBase + i)) ∧ allowed ∧
        RtPairAt crypto compiled.params env.transaction base burnScript
          burnScript side.flip ∧ outputs = [] := by
  have htwo : ∀ i, i ≤ 1 ↔ i = 0 ∨ i = 1 := by omega
  unfold dormantSettlement
  simp only [safeAdd32_bind, ensureNoIssuance_bind, check_bind hauthorize,
    ensureCurrentIndex_bind, hcurrent, true_and,
    rtBurns_bind hvalid hcontext hyes hno hyesUtxo hnoUtxo, pure_eq_ok, htwo,
    forall_eq_or_imp, forall_eq, add_zero, RtPairAt]
  constructor
  · rintro ⟨-, hbase, hyesQuiet, hnoQuiet, hallowed, hyesAt, hnoAt, rfl⟩
    exact ⟨⟨hyesQuiet, hnoQuiet⟩, hallowed, ⟨hbase, hyesAt, hnoAt⟩, rfl⟩
  · rintro ⟨⟨hyesQuiet, hnoQuiet⟩, hallowed, ⟨hbase, hyesAt, hnoAt⟩, rfl⟩
    exact ⟨hsecond, hbase, hyesQuiet, hnoQuiet, hallowed, hyesAt, hnoAt, rfl⟩

variable {collateral : TrackedContractOutput} {amount n : ℕ} {collateralSlot : BinaryMarketSlot}
  (hcollateral : CollateralHeld crypto compiled.params collateralSlot amount collateral)
  (hcollateralUtxo : env.utxos[inputBase + 2]? = some collateral.txout)
  (hthird : inputBase + 2 < 2 ^ 32)

include hcollateral hcollateralUtxo hthird

theorem activeSettlement_eq_ok {authorize : Simplicity Unit} {allowed : Prop}
    (finalSlot : BinaryMarketSlot) (tag : ℕ) (htag : finalSlot.tag = tag)
    (hauthorize : ∀ u, authorize = .ok u ↔ allowed) :
    activeSettlement crypto compiled env inputBase base authorize tag = .ok outputs ↔
      (∀ i ≤ 2, NoIssuanceAt env.transaction (inputBase + i)) ∧ allowed ∧ base + 2 < 2 ^ 32 ∧
        RtPairAt crypto compiled.params env.transaction base burnScript burnScript side.flip ∧
        LockedAt crypto compiled.params env.transaction (base + 2) finalSlot amount ∧
        outputs = slotOutputs [(base + 2, finalSlot)] := by
  have hthree : ∀ i, i ≤ 2 ↔ i = 0 ∨ i = 1 ∨ i = 2 := by omega
  subst htag
  unfold activeSettlement
  simp only [safeAdd32_bind, ensureNoIssuance_bind, check_bind hauthorize,
    ensureCurrentIndex_bind, hcurrent, true_and,
    rtBurns_bind hvalid hcontext hyes hno hyesUtxo hnoUtxo,
    ensureInputExplicit_bind hcollateral hcollateralUtxo,
    lockedOutput_bind hcontext finalSlot _ rfl, pure_eq_ok, hthree,
    forall_eq_or_imp, forall_eq, add_zero, RtPairAt, slotOutputs, List.map_cons, List.map_nil]
  constructor
  · rintro ⟨-, -, hbase, hwindow, hyesQuiet, hnoQuiet, hlockedQuiet, hallowed,
      hyesAt, hnoAt, hlocked, rfl⟩
    exact ⟨⟨hyesQuiet, hnoQuiet, hlockedQuiet⟩, hallowed, hwindow,
      ⟨hbase, hyesAt, hnoAt⟩, hlocked, rfl⟩
  · rintro ⟨⟨hyesQuiet, hnoQuiet, hlockedQuiet⟩, hallowed, hwindow,
      ⟨hbase, hyesAt, hnoAt⟩, hlocked, rfl⟩
    exact ⟨hsecond, hthird, hbase, hwindow, hyesQuiet, hnoQuiet, hlockedQuiet,
      hallowed, hyesAt, hnoAt, hlocked, rfl⟩

include hkeyless in
theorem subsequentIssuance_eq_ok (hn : n ≠ 0)
    (hamount : amount = n * (2 * compiled.params.basePayout)) :
    subsequentIssuance crypto compiled env inputBase base = .ok outputs ↔
      Binds crypto compiled.params env.transaction side inputBase (.trading n) (.issue base)
        outputs := by
  unfold subsequentIssuance
  simp only [safeAdd32_bind, ensureCurrentIndex_bind, hcurrent, true_and,
    rtContinuations_bind hvalid hcontext hyes hno hyesUtxo hnoUtxo
      .unresolvedYesRt 2 .unresolvedNoRt 3 rfl rfl,
    reissuances_bind hkeyless, collateralForPairs_bind hvalid,
    ensureInputExplicit_bind hcollateral hcollateralUtxo, ensureNoIssuance_bind,
    safeAdd_bind, hamount, ← Nat.add_mul,
    lockedOutput_bind hcontext .unresolvedCollateral 4 rfl, pure_eq_ok]
  constructor
  · rintro ⟨-, -, hbase, hwindow, hyesAt, hnoAt, pairs, hpairs, hyesIssued,
      hnoIssued, hquiet, -, hbound, hlocked, rfl⟩
    exact ⟨_, _, .issue hpairs hbound hyesIssued hnoIssued (fun _ => hquiet)
      hwindow ⟨hbase, hyesAt, hnoAt⟩ hlocked, rfl⟩
  · rintro ⟨after, places, hstep, rfl⟩
    cases hstep with
    | @issue _ pairs _ hpairs hbound hyesIssued hnoIssued hquiet hwindow htokens hlocked =>
      have hadded : pairs * (2 * compiled.params.basePayout) < 2 ^ 64 :=
        lt_of_le_of_lt (Nat.mul_le_mul_right _ (Nat.le_add_left _ _)) hbound
      exact ⟨hsecond, hthird, htokens.1, hwindow, htokens.2.1, htokens.2.2, _,
        hpairs, hyesIssued, hnoIssued, hquiet hn, hadded, hbound, hlocked, rfl⟩

theorem cancellation_part (base : ℕ) (outputs : List SlotOutput) (txout : TxOut) (left : ℕ)
    (hout : env.transaction.output[base + 2]? = some txout)
    (hvalue : explicitAssetValue txout = some (compiled.params.collateralAssetId, left)) :
    cancellation crypto compiled env inputBase base = .ok outputs ↔
      (∀ i ≤ 2, NoIssuanceAt env.transaction (inputBase + i)) ∧ base + 4 < 2 ^ 32 ∧
        SlotPairAt crypto compiled.params env.transaction base .unresolvedYesRt .unresolvedNoRt
          side.flip ∧
        ∃ pairs, pairs ≠ 0 ∧ pairs * (2 * compiled.params.basePayout) < 2 ^ 64 ∧
          amount = pairs * (2 * compiled.params.basePayout) + left ∧ left ≠ 0 ∧
          LockedAt crypto compiled.params env.transaction (base + 2) .unresolvedCollateral left ∧
          ExplicitAt env.transaction (base + 3) burnScript compiled.params.yesTokenAssetId pairs ∧
          ExplicitAt env.transaction (base + 4) burnScript compiled.params.noTokenAssetId pairs ∧
          outputs = slotOutputs [(base, .unresolvedYesRt),
            (base + 1, .unresolvedNoRt), (base + 2, .unresolvedCollateral)] := by
  have hthree : ∀ i, i ≤ 2 ↔ i = 0 ∨ i = 1 ∨ i = 2 := by omega
  have hread := getOutputExplicit_eq_ok.mpr ⟨txout, hout, hvalue⟩
  have hscript : ∀ u, ensureOutputScript crypto env (base + 2)
      (env.scriptForSlot 4) = .ok u ↔ _ := fun _ =>
    ensureOutputScript_slot hcontext .unresolvedCollateral
  unfold cancellation
  simp only [safeAdd32_bind, hread, ok_bind, decide_true, if_true,
    ensureNoIssuance_bind, ensureCurrentIndex_bind, hcurrent, true_and,
    rtContinuations_bind hvalid hcontext hyes hno hyesUtxo hnoUtxo
      .unresolvedYesRt 2 .unresolvedNoRt 3 rfl rfl,
    burns_bind hcontext, ensureInputExplicit_bind hcollateral hcollateralUtxo,
    collateralForPairs_bind hvalid, safeSubtract_bind, check_bind hscript,
    ensureNonzero, assertion_bind, pure_eq_ok, hthree,
    forall_eq_or_imp, forall_eq, add_zero, SlotPairAt, RtPairAt, slotOutputs, List.map_cons,
    List.map_nil]
  constructor
  · rintro ⟨-, -, hbase, -, -, hwindow, hyesQuiet, hnoQuiet, hlockedQuiet, pairs,
      hpairs, hyesBurn, hnoBurn, hyesAt, hnoAt, hreleased, _, hleft, hne, rfl,
      ⟨txout', hout', hlocked⟩, rfl⟩
    cases hout.symm.trans hout'
    exact ⟨⟨hyesQuiet, hnoQuiet, hlockedQuiet⟩, hwindow, ⟨hbase, hyesAt, hnoAt⟩,
      pairs, hpairs, hreleased, hleft, hne, ⟨txout, hout, hlocked, hvalue⟩, hyesBurn, hnoBurn, rfl⟩
  · rintro ⟨⟨hyesQuiet, hnoQuiet, hlockedQuiet⟩, hwindow, ⟨hbase, hyesAt, hnoAt⟩,
      pairs, hpairs, hreleased, hleft, hne, ⟨txout', hout', hlocked, -⟩, hyesBurn, hnoBurn, rfl⟩
    exact ⟨hsecond, hthird, hbase, by omega, by omega, hwindow, hyesQuiet,
      hnoQuiet, hlockedQuiet, pairs, hpairs, hyesBurn, hnoBurn, hyesAt, hnoAt,
      hreleased, left, hleft, hne, rfl, ⟨txout', hout', hlocked⟩, rfl⟩

theorem cancellation_all (base : ℕ) (outputs : List SlotOutput) (txout : TxOut)
    (asset : AssetId) (other : ℕ) (hout : env.transaction.output[base + 2]? = some txout)
    (hvalue : explicitAssetValue txout = some (asset, other))
    (hasset : asset ≠ compiled.params.collateralAssetId) :
    cancellation crypto compiled env inputBase base = .ok outputs ↔
      (∀ i ≤ 2, NoIssuanceAt env.transaction (inputBase + i)) ∧ base + 3 < 2 ^ 32 ∧
        SlotPairAt crypto compiled.params env.transaction base .dormantYesRt .dormantNoRt
          side.flip ∧
        ∃ pairs, pairs ≠ 0 ∧ pairs * (2 * compiled.params.basePayout) < 2 ^ 64 ∧
          amount = pairs * (2 * compiled.params.basePayout) ∧
          ExplicitAt env.transaction (base + 2) burnScript compiled.params.yesTokenAssetId pairs ∧
          ExplicitAt env.transaction (base + 3) burnScript compiled.params.noTokenAssetId pairs ∧
          outputs = slotOutputs [(base, .dormantYesRt), (base + 1, .dormantNoRt)] := by
  have hthree : ∀ i, i ≤ 2 ↔ i = 0 ∨ i = 1 ∨ i = 2 := by omega
  have hread := getOutputExplicit_eq_ok.mpr ⟨txout, hout, hvalue⟩
  unfold cancellation
  simp only [safeAdd32_bind, hread, ok_bind, decide_eq_false hasset,
    Bool.false_eq_true, if_false, ensureNoIssuance_bind, ensureCurrentIndex_bind,
    hcurrent, true_and,
    rtContinuations_bind hvalid hcontext hyes hno hyesUtxo hnoUtxo
      .dormantYesRt 0 .dormantNoRt 1 rfl rfl,
    burns_bind hcontext, ensureInputExplicit_bind hcollateral hcollateralUtxo,
    collateralForPairs_bind hvalid, safeSubtract_bind, assertion_bind,
    pure_eq_ok, hthree, forall_eq_or_imp, forall_eq, add_zero, SlotPairAt, RtPairAt,
    slotOutputs, List.map_cons, List.map_nil]
  constructor
  · rintro ⟨-, -, hbase, -, hwindow, hyesQuiet, hnoQuiet, hlockedQuiet, pairs,
      hpairs, hyesBurn, hnoBurn, hyesAt, hnoAt, hreleased, _, hleft, rfl, rfl⟩
    exact ⟨⟨hyesQuiet, hnoQuiet, hlockedQuiet⟩, hwindow, ⟨hbase, hyesAt, hnoAt⟩,
      pairs, hpairs, hreleased, hleft, hyesBurn, hnoBurn, rfl⟩
  · rintro ⟨⟨hyesQuiet, hnoQuiet, hlockedQuiet⟩, hwindow, ⟨hbase, hyesAt, hnoAt⟩,
      pairs, hpairs, hreleased, hleft, hyesBurn, hnoBurn, rfl⟩
    exact ⟨hsecond, hthird, hbase, by omega, hwindow, hyesQuiet, hnoQuiet,
      hlockedQuiet, pairs, hpairs, hyesBurn, hnoBurn, hyesAt, hnoAt, hreleased, 0, hleft, rfl, rfl⟩

theorem cancellation_eq_ok (hn : n ≠ 0) (hamount : amount = n * (2 * compiled.params.basePayout))
    (hbound : amount < 2 ^ 64) :
    cancellation crypto compiled env inputBase base = .ok outputs ↔
      Binds crypto compiled.params env.transaction side inputBase (.trading n) (.cancel base)
        outputs := by
  have hpayout := hvalid.basePayout_ne
  have hpart := cancellation_part hvalid hcontext hcurrent hyes hno hyesUtxo hnoUtxo hsecond
    hcollateral hcollateralUtxo hthird base outputs
  have hall := cancellation_all hvalid hcontext hcurrent hyes hno hyesUtxo hnoUtxo hsecond
    hcollateral hcollateralUtxo hthird base outputs
  constructor
  · intro hok
    obtain ⟨txout, asset, left, hout, hvalue⟩ := cancellation_third hok
    by_cases hasset : asset = compiled.params.collateralAssetId
    · subst hasset
      obtain ⟨hquiet, hwindow, htokens, pairs, hpairs, -, hleft, hne, hlocked,
        hyesBurn, hnoBurn, rfl⟩ := (hpart _ _ hout hvalue).mp hok
      obtain ⟨rest, rfl, rfl⟩ := exists_rest_of_mul (by omega) (hamount.symm.trans hleft)
      have hrest : rest ≠ 0 := left_ne_zero_of_mul hne
      exact ⟨_, _, .cancelPart hpairs hrest hquiet hwindow htokens hlocked hyesBurn hnoBurn, rfl⟩
    · obtain ⟨hquiet, hwindow, htokens, pairs, hpairs, -, hleft, hyesBurn,
        hnoBurn, rfl⟩ := (hall _ _ _ hout hvalue hasset).mp hok
      have hsame : n = pairs := Nat.eq_of_mul_eq_mul_right (by omega) (hamount.symm.trans hleft)
      subst hsame
      exact ⟨_, _, .cancelAll hpairs hquiet hwindow htokens hyesBurn hnoBurn, rfl⟩
  · rintro ⟨after, places, hstep, rfl⟩
    generalize hstate : BinaryMarketState.trading n = state at hstep
    cases hstep with
    | @cancelPart left pairs _ hpairs hleft hquiet hwindow htokens hlocked hyesBurn hnoBurn =>
      cases hstate
      have hthirdOut := hlocked
      obtain ⟨txout, hout, -, hvalue⟩ := hthirdOut
      have hparts : amount = pairs * (2 * compiled.params.basePayout) +
          left * (2 * compiled.params.basePayout) := by
        rw [hamount, Nat.add_mul, Nat.add_comm]
      exact (hpart _ _ hout hvalue).mpr ⟨hquiet, hwindow, htokens, pairs, hpairs,
        by omega, hparts, Nat.mul_ne_zero hleft (by omega), hlocked, hyesBurn,
        hnoBurn, rfl⟩
    | cancelAll hpairs hquiet hwindow htokens hyesBurn hnoBurn =>
      cases hstate
      have hthirdOut := hyesBurn
      obtain ⟨txout, hout, -, hvalue⟩ := hthirdOut
      exact (hall _ _ _ hout hvalue (hvalid.token_ne_collateral true)).mpr ⟨hquiet,
        hwindow, htokens, n, hpairs, hamount ▸ hbound, hamount, hyesBurn, hnoBurn, rfl⟩

end

/-! ## Redemptions -/

section

variable {inputBase base unit amount : ℕ} {slot : BinaryMarketSlot}
  {collateral : TrackedContractOutput} {outputs : List SlotOutput} (hvalid : compiled.Valid crypto)
  (hcontext : CovenantContext crypto compiled.params live env)
  (hcurrent : env.currentIndex = inputBase)
  (hcollateral : CollateralHeld crypto compiled.params slot amount collateral)
  (hutxo : env.utxos[inputBase]? = some collateral.txout) {checkSide : Bool → Simplicity Unit}
  {sided : Bool → Prop} {payoutFor : ℕ → Simplicity ℕ}
  (hside : ∀ yes u, checkSide yes = .ok u ↔ sided yes)
  (hpayout : ∀ tokens payout, payoutFor tokens = .ok payout ↔
    payout = tokens * unit ∧ tokens * unit < 2 ^ 64)

theorem redemption_first {tag : ℕ}
    (hok : redemption crypto compiled env tag inputBase base checkSide payoutFor = .ok outputs) :
    ∃ txout asset first, env.transaction.output[base]? = some txout ∧
      explicitAssetValue txout = some (asset, first) := by
  unfold redemption at hok
  simp only [ensureCurrentIndex_bind, ensureNoIssuance_bind] at hok
  obtain ⟨-, -, hok⟩ := hok
  obtain ⟨⟨asset, first⟩, hread, -⟩ := bind_eq_ok.mp hok
  obtain ⟨txout, hout, hvalue⟩ := getOutputExplicit_eq_ok.mp hread
  exact ⟨txout, asset, first, hout, hvalue⟩

include hvalid hcontext in
theorem marketTokenBurn_bind {rest : Bool × ℕ → Simplicity α} :
    (marketTokenBurn crypto compiled env index >>= rest) = .ok value ↔ ∃ yes tokens, tokens ≠ 0 ∧
        ExplicitAt env.transaction index burnScript
          (tokenAssetId compiled.params yes) tokens ∧ rest (yes, tokens) = .ok value := by
  simp only [bind_eq_ok, Prod.exists,
    marketTokenBurn_eq_ok hcontext rfl hvalid.tokens_ne, and_assoc]

include hvalid hcontext hcurrent hcollateral hutxo hside hpayout

theorem redemption_part {txout : TxOut} {left : ℕ}
    (hout : env.transaction.output[base]? = some txout)
    (hvalue : explicitAssetValue txout = some (compiled.params.collateralAssetId, left)) :
    redemption crypto compiled env slot.tag inputBase base checkSide payoutFor = .ok outputs ↔
      NoIssuanceAt env.transaction inputBase ∧ base + 1 < 2 ^ 32 ∧
        ∃ yes tokens, tokens ≠ 0 ∧ sided yes ∧ tokens * unit < 2 ^ 64 ∧
          amount = tokens * unit + left ∧ left ≠ 0 ∧
          LockedAt crypto compiled.params env.transaction base slot left ∧
          ExplicitAt env.transaction (base + 1) burnScript
            (tokenAssetId compiled.params yes) tokens ∧ outputs = slotOutputs [(base, slot)] := by
  have hread := getOutputExplicit_eq_ok.mpr ⟨txout, hout, hvalue⟩
  have hscript : ∀ u, ensureOutputScript crypto env base
      (env.scriptForSlot slot.tag) = .ok u ↔ _ := fun _ =>
    ensureOutputScript_slot hcontext slot
  unfold redemption
  simp only [hread, ok_bind, decide_true, if_true, safeAdd32_bind,
    ensureNoIssuance_bind, ensureCurrentIndex_bind, hcurrent, true_and,
    marketTokenBurn_bind hvalid hcontext, check_bind (hside _),
    ensureInputExplicit_bind hcollateral hutxo, bounded_bind (hpayout _),
    safeSubtract_bind, check_bind hscript, ensureNonzero, assertion_bind,
    pure_eq_ok, slotOutputs, List.map_cons, List.map_nil]
  constructor
  · rintro ⟨hquiet, hwindow, yes, tokens, htokens, hburned, hsided, hbound, _,
      hpaid, hne, rfl, ⟨txout', hout', hlocked⟩, rfl⟩
    cases hout.symm.trans hout'
    exact ⟨hquiet, hwindow, yes, tokens, htokens, hsided, hbound, hpaid, hne,
      ⟨txout, hout, hlocked, hvalue⟩, hburned, rfl⟩
  · rintro ⟨hquiet, hwindow, yes, tokens, htokens, hsided, hbound, hpaid, hne,
      ⟨txout', hout', hlocked, -⟩, hburned, rfl⟩
    exact ⟨hquiet, hwindow, yes, tokens, htokens, hburned, hsided, hbound, left,
      hpaid, hne, rfl, ⟨txout', hout', hlocked⟩, rfl⟩

theorem redemption_all {txout : TxOut} {first : ℕ}
    (hout : env.transaction.output[base]? = some txout)
    (hvalue : explicitAssetValue txout = some (asset, first))
    (hasset : asset ≠ compiled.params.collateralAssetId) :
    redemption crypto compiled env slot.tag inputBase base checkSide payoutFor = .ok outputs ↔
      NoIssuanceAt env.transaction inputBase ∧
        ∃ yes tokens, tokens ≠ 0 ∧ sided yes ∧ tokens * unit < 2 ^ 64 ∧ amount = tokens * unit ∧
          ExplicitAt env.transaction base burnScript
            (tokenAssetId compiled.params yes) tokens ∧ outputs = slotOutputs [] := by
  have hread := getOutputExplicit_eq_ok.mpr ⟨txout, hout, hvalue⟩
  unfold redemption
  simp only [hread, ok_bind, decide_eq_false hasset, Bool.false_eq_true, if_false,
    ensureNoIssuance_bind, ensureCurrentIndex_bind, hcurrent, true_and,
    marketTokenBurn_bind hvalid hcontext, check_bind (hside _),
    ensureInputExplicit_bind hcollateral hutxo, bounded_bind (hpayout _),
    safeSubtract_bind, assertion_bind, pure_eq_ok, slotOutputs, List.map_nil]
  constructor
  · rintro ⟨hquiet, yes, tokens, htokens, hburned, hsided, hbound, _, hpaid, rfl, rfl⟩
    exact ⟨hquiet, yes, tokens, htokens, hsided, hbound, hpaid, hburned, rfl⟩
  · rintro ⟨hquiet, yes, tokens, htokens, hsided, hbound, hpaid, hburned, rfl⟩
    exact ⟨hquiet, yes, tokens, htokens, hburned, hsided, hbound, 0, hpaid, rfl, rfl⟩

theorem redemption_eq_ok {state : BinaryMarketState} {yes : Bool} {next : ℕ → BinaryMarketState}
    (hstate : Redeemable compiled.params.basePayout state yes unit amount slot
      next)
    (hsided : ∀ yes', sided yes' ↔ Pays state yes') :
    redemption crypto compiled env slot.tag inputBase base checkSide payoutFor = .ok outputs ↔
      Binds crypto compiled.params env.transaction side inputBase state (.redeem base) outputs := by
  constructor
  · intro hok
    obtain ⟨txout, asset, left, hout, hvalue⟩ := redemption_first hok
    by_cases hasset : asset = compiled.params.collateralAssetId
    · subst hasset
      obtain ⟨hquiet, hwindow, yes', tokens, htokens, hpays, hbound, hpaid, hne,
        hlocked, hburned, rfl⟩ := (redemption_part hvalid hcontext hcurrent
          hcollateral hutxo hside hpayout hout hvalue).mp hok
      have hredeems := hstate.of_pays ((hsided yes').mp hpays)
      exact ⟨_, _, .redeemPart hredeems htokens hne hpaid.symm hbound hquiet
        hwindow hlocked hburned, rfl⟩
    · obtain ⟨hquiet, yes', tokens, htokens, hpays, hbound, hpaid, hburned,
        rfl⟩ := (redemption_all hvalid hcontext hcurrent hcollateral hutxo hside
          hpayout hout hvalue hasset).mp hok
      have hredeems := hstate.of_pays ((hsided yes').mp hpays)
      exact ⟨_, _, .redeemAll hredeems htokens hpaid.symm hbound hquiet hburned, rfl⟩
  · rintro ⟨after, places, hstep, rfl⟩
    cases hstep with
    | @redeemPart _ yes' unit' amount' remaining tokens _ slot' next' hredeems
        htokens hleft hpaid hbound hquiet hwindow hlocked hburned =>
        obtain ⟨rfl, rfl, rfl⟩ := hstate.terms_unique hredeems
        have hpays := (hsided yes').mpr hredeems.pays
        have hfirst := hlocked
        obtain ⟨txout, hout, -, hvalue⟩ := hfirst
        exact (redemption_part hvalid hcontext hcurrent hcollateral hutxo hside
          hpayout hout hvalue).mpr ⟨hquiet, hwindow, yes', tokens, htokens, hpays,
            hbound, hpaid.symm, hleft, hlocked, hburned, rfl⟩
    | @redeemAll _ yes' unit' amount' tokens _ slot' next' hredeems htokens hpaid
        hbound hquiet hburned =>
        obtain ⟨rfl, rfl, rfl⟩ := hstate.terms_unique hredeems
        have hpays := (hsided yes').mpr hredeems.pays
        have hother := hvalid.token_ne_collateral yes'
        have hfirst := hburned
        obtain ⟨txout, hout, -, hvalue⟩ := hfirst
        exact (redemption_all hvalid hcontext hcurrent hcollateral hutxo hside
          hpayout hout hvalue hother).mpr ⟨hquiet, yes', tokens, htokens, hpays,
            hbound, hpaid.symm, hburned, rfl⟩

end

end Covenant

end DeadcatNode
