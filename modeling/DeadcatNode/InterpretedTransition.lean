import DeadcatNode.MarketTransition

/-!
# The interpreter follows the transitions

The spend interpreter accepts exactly the market transitions, and what it
returns is what the transition describes.  Each check of the interpreter is
first restated in the terms of the transition relation.
-/

namespace DeadcatNode

open Checked

variable {crypto : MarketCrypto} {compiled : CompiledBinaryMarket} {transaction : Transaction}
  {output : Option TrackedContractOutput} {slot : BinaryMarketSlot} {u : Unit} {asset : AssetId}
  {live : BinaryMarketLiveOutputs} {params : BinaryMarketParams} {n index inputBase : ℕ}
  {sides : BinaryMarketRtSides} {layout : BinaryMarketLayout} {path : BinaryMarketPath}
  {state : BinaryMarketState} {economics : BinaryMarketEconomics} {amount base : ℕ}
  {found : List BinaryMarketContinuation} {side : RtSide}

/-! ## Live outputs -/

theorem economics_new_eq_ok {basePayout : ℕ}
    (hnew : BinaryMarketEconomics.new basePayout = .ok economics) :
    economics.basePayout = basePayout ∧ economics.collateralPerPair = 2 * basePayout := by
  have hbase := BinaryMarketEconomics.new_eq_ok_basePayout hnew
  exact ⟨hbase, hbase ▸ economics.perPair⟩

@[simp] theorem liftEconomics_eq_ok {α : Type} {result : Except BinaryMarketError α} {value : α} :
    liftEconomics result = .ok value ↔ result = .ok value := mapError_eq_ok

@[simp] theorem checkLiveSlot_eq_ok : checkLiveSlot crypto compiled output slot = .ok u ↔
      ∃ tracked, output = some tracked ∧
        tracked.txout.scriptPubkey = crypto.slotScript compiled.params slot := by
  simp [checkLiveSlot]

@[simp] theorem checkExplicitLive_eq_ok : checkExplicitLive output asset amount = .ok u ↔
      ∃ tracked, output = some tracked ∧
        explicitAssetValue tracked.txout = some (asset, amount) := by
  simp [checkExplicitLive]

theorem checkTerminalLive_eq_ok {reason : String} :
    checkTerminalLive crypto compiled live reason slot amount = .ok u ↔
      ∃ collateral, live = ⟨none, none, some collateral⟩ ∧
        CollateralHeld crypto compiled.params slot amount collateral := by
  simp only [checkTerminalLive, bind_eq_ok, require_eq_ok, checkLiveSlot_eq_ok,
    checkExplicitLive_eq_ok, not_or, Bool.not_eq_true,
    Option.isSome_eq_false_iff, Option.isNone_iff_eq_none]
  constructor
  · rintro ⟨-, ⟨hyes, hno⟩, -, ⟨tracked, htracked, hscript⟩, tracked', htracked', hamount⟩
    cases htracked.symm.trans htracked'
    obtain ⟨yesRt, noRt, collateral⟩ := live
    subst hyes hno htracked
    exact ⟨tracked, rfl, hscript, hamount⟩
  · rintro ⟨collateral, rfl, hscript, hamount⟩
    exact ⟨(), ⟨rfl, rfl⟩, (), ⟨collateral, rfl, hscript⟩, collateral, rfl, hamount⟩

theorem collateralForPairs_eq_ok {pairs : ℕ} : economics.collateralForPairs pairs = .ok amount ↔
      pairs * economics.collateralPerPair = amount ∧ amount < 2 ^ 64 := by
  simp [BinaryMarketEconomics.collateralForPairs, BinaryMarketEconomics.checkedPayout]

theorem inferSide_eq_some {leg : RtLeg} {assetId : AssetId} {actual : RtCommitments} :
    inferSide crypto leg assetId actual = some side ↔
      crypto.commitments assetId (rtFactors leg side) = some actual ∧
        ∃ other, crypto.commitments assetId (rtFactors leg side.flip) =
          some other ∧ other ≠ actual := by
  simp only [inferSide, Option.bind_eq_bind, Option.bind_eq_some_iff]
  constructor
  · rintro ⟨a, ha, b, hb, hmatch⟩
    by_cases hisA : actual = a
    · by_cases hisB : actual = b
      · rw [decide_eq_true hisA, decide_eq_true hisB] at hmatch
        cases hmatch
      · rw [decide_eq_true hisA, decide_eq_false hisB] at hmatch
        cases hmatch
        exact ⟨hisA ▸ ha, b, hb, fun heq => hisB heq.symm⟩
    · by_cases hisB : actual = b
      · rw [decide_eq_false hisA, decide_eq_true hisB] at hmatch
        cases hmatch
        exact ⟨hisB ▸ hb, a, ha, fun heq => hisA heq.symm⟩
      · rw [decide_eq_false hisA, decide_eq_false hisB] at hmatch
        cases hmatch
  · rintro ⟨hactual, other, hother, hne⟩
    cases side with
    | a => exact ⟨actual, hactual, other, hother, by simp [hne.symm]⟩
    | b => exact ⟨other, hother, actual, hactual, by simp [hne.symm]⟩

def sidesOf (side : RtSide) : BinaryMarketState → BinaryMarketRtSides
  | .trading _ => ⟨some side, some side⟩
  | _ => {}

theorem inferLiveRtSides_trading : inferLiveRtSides crypto params (.trading n) live = .ok sides ↔
      ∃ yes no side, live.yesRt = some yes ∧ live.noRt = some no ∧
        inferSide crypto .yes params.yesReissuanceTokenId
          (yes.txout.asset, yes.txout.value) = some side ∧
        inferSide crypto .no params.noReissuanceTokenId
          (no.txout.asset, no.txout.value) = some side ∧ sides = ⟨some side, some side⟩ := by
  simp only [inferLiveRtSides, bind_eq_ok, okOr_eq_ok, require_eq_ok, pure_eq_ok]
  constructor
  · rintro ⟨yes, hyes, no, hno, yesSide, hyesSide, noSide, hnoSide, -, rfl, rfl⟩
    exact ⟨yes, no, yesSide, hyes, hno, hyesSide, hnoSide, rfl⟩
  · rintro ⟨yes, no, side, hyes, hno, hyesSide, hnoSide, rfl⟩
    exact ⟨yes, hyes, no, hno, side, hyesSide, side, hnoSide, (), rfl, rfl⟩

theorem checkConfidentialRt_eq_ok :
    checkConfidentialRt output = .ok u ↔ ∃ tracked, output = some tracked ∧
      tracked.txout.asset.isConfidential = true ∧ tracked.txout.value.isConfidential = true := by
  simp [checkConfidentialRt]

theorem holdsOutputs_of_validated (hlive : validateLiveOutputs crypto compiled state live = .ok ())
    (hsides : inferLiveRtSides crypto compiled.params state live = .ok sides) :
    ∃ side, HoldsOutputs crypto compiled.params side state live ∧ sides = sidesOf side state := by
  simp only [validateLiveOutputs, bind_eq_ok, liftEconomics_eq_ok] at hlive
  obtain ⟨economics, hnew, _, hstate, hlive⟩ := hlive
  obtain ⟨hbase, hpair⟩ := economics_new_eq_ok hnew
  obtain ⟨yesRt, noRt, collateral⟩ := live
  rcases state with (_ | n) | amount | amount | amount
  · obtain ⟨yes, no, side, rfl, rfl, hyesSide, hnoSide, rfl⟩ := inferLiveRtSides_trading.mp hsides
    simp only [bind_eq_ok, checkLiveSlot_eq_ok, require_eq_ok, Option.some.injEq] at hlive
    obtain ⟨-, ⟨_, rfl, hyes⟩, -, ⟨_, rfl, hno⟩, -, -, -, -, rfl⟩ := hlive
    exact ⟨side, .dormant ⟨hyes, hyesSide⟩ ⟨hno, hnoSide⟩, rfl⟩
  · obtain ⟨yes, no, side, rfl, rfl, hyesSide, hnoSide, rfl⟩ := inferLiveRtSides_trading.mp hsides
    simp only [bind_eq_ok, checkLiveSlot_eq_ok, checkExplicitLive_eq_ok,
      liftEconomics_eq_ok, collateralForPairs_eq_ok, Option.some.injEq] at hlive
    obtain ⟨-, ⟨_, rfl, hyes⟩, -, ⟨_, rfl, hno⟩, -, -, -, -, -,
      ⟨tracked, rfl, hscript⟩, amount, ⟨rfl, hbound⟩, _, hsame, hamount⟩ := hlive
    cases hsame
    rw [hpair] at hbound hamount
    exact ⟨side, .trading hbound ⟨hyes, hyesSide⟩ ⟨hno, hnoSide⟩ ⟨hscript, hamount⟩, rfl⟩
  all_goals
    obtain ⟨tracked, hheld, hcollateral⟩ := checkTerminalLive_eq_ok.mp hlive
    cases hheld
    cases hsides
    have hwhole := require_eq_ok.mp hstate
  · rw [hpair] at hwhole
    exact ⟨.a, .settled (.resolvedYes amount) hwhole hcollateral, rfl⟩
  · rw [hpair] at hwhole
    exact ⟨.a, .settled (.resolvedNo amount) hwhole hcollateral, rfl⟩
  · rw [hbase] at hwhole
    exact ⟨.a, .settled (.expired amount true) hwhole hcollateral, rfl⟩

theorem HoldsOutputs.inferLiveRtSides (hholds : HoldsOutputs crypto params side state live) :
    inferLiveRtSides crypto params state live = .ok (sidesOf side state) := by
  cases hholds with
  | dormant hyes hno | trading _ hyes hno =>
    exact inferLiveRtSides_trading.mpr ⟨_, _, side, rfl, rfl, hyes.side, hno.side, rfl⟩
  | settled hstate hwhole hcollateral => cases hstate <;> rfl

/-! ## Single outputs and inputs -/

@[simp] theorem addIndex_eq_ok {offset sum : ℕ} :
    addIndex index offset = .ok sum ↔ sum = index + offset ∧ index + offset < 2 ^ 32 := by
  simp only [addIndex, okOr_eq_ok, checkedAdd_eq_some]
  constructor <;> rintro ⟨rfl, hlt⟩ <;> exact ⟨rfl, hlt⟩

@[simp] theorem outputAt_eq_ok {txout : TxOut} :
    outputAt transaction index = .ok txout ↔ transaction.output[index]? = some txout := okOr_eq_ok

theorem tokenBurnAmount_eq_ok : tokenBurnAmount transaction index asset = .ok amount ↔
      amount ≠ 0 ∧ ExplicitAt transaction index burnScript asset amount := by
  simp only [tokenBurnAmount, bind_eq_ok, outputAt_eq_ok, okOr_eq_ok,
    require_eq_ok, pure_eq_ok, Prod.exists, not_or, not_not]
  constructor
  · rintro ⟨txout, hat, actual, amount', hexplicit, -, ⟨rfl, hne, hscript⟩, rfl⟩
    exact ⟨hne, txout, hat, hscript, hexplicit⟩
  · rintro ⟨hne, txout, hat, hscript, hexplicit⟩
    exact ⟨txout, hat, asset, amount, hexplicit, (), ⟨rfl, hne, hscript⟩, rfl⟩

theorem checkTokenBurn_eq_ok : checkTokenBurn transaction index asset amount = .ok u ↔
      amount ≠ 0 ∧ ExplicitAt transaction index burnScript asset amount := by
  simp only [checkTokenBurn, bind_eq_ok, require_eq_ok, tokenBurnAmount_eq_ok]
  constructor
  · rintro ⟨actual, hburn, rfl⟩
    exact hburn
  · intro hburn
    exact ⟨amount, hburn, rfl⟩

theorem issuanceAmount_eq_ok (leg : RtLeg) : issuanceAmount crypto transaction index asset
        (rtAssetId compiled.params leg) (rtFactors leg side).abf = .ok amount ↔
      ReissuedAt crypto compiled.params transaction index asset leg side
        amount := by
  simp only [issuanceAmount, bind_eq_ok, okOr_eq_ok, require_eq_ok, not_or, not_not]
  constructor
  · rintro ⟨input, hat, -, ⟨-, hids, hkeys, hnonce⟩, hamount⟩
    split at hamount
    · next value hvalue =>
      cases hamount
      exact ⟨input, hat, hids, hnonce, hvalue, hkeys⟩
    · cases hamount
  · rintro ⟨input, hat, hids, hnonce, hvalue, hkeys⟩
    have hissuance : input.hasIssuance = true := by simp [TxIn.hasIssuance, hvalue]
    refine ⟨input, hat, (), ⟨hissuance, hids, hkeys, hnonce⟩, ?_⟩
    rw [hvalue]
    rfl

theorem inputHasIssuance_eq_false {input : TxIn} (hinput : transaction.input[index]? = some input) :
    inputHasIssuance transaction index = false ↔ NoIssuanceAt transaction index := by
  simp [inputHasIssuance, NoIssuanceAt, hinput]

theorem checkExpiryLock_eq_ok : checkExpiryLock transaction compiled.params.expiryHeight = .ok u ↔
      ExpiryLocked compiled.params transaction := by
  simp only [checkExpiryLock, require_eq_ok, ExpiryLocked, not_or, not_not, not_lt, not_le]

/-! ## Continuations -/

theorem rtContinuation_eq_ok (leg : RtLeg) {found : BinaryMarketContinuation} :
    rtContinuation crypto compiled transaction index slot
        (rtAssetId compiled.params leg) (rtFactors leg side) = .ok found ↔
      ∃ txout, transaction.output[index]? = some txout ∧
        txout.scriptPubkey = crypto.slotScript compiled.params slot ∧
        crypto.commitments (rtAssetId compiled.params leg)
          (rtFactors leg side) = some (txout.asset, txout.value) ∧
        found = continuation crypto transaction index slot txout := by
  simp only [rtContinuation, bind_eq_ok, outputAt_eq_ok, okOr_eq_ok,
    require_eq_ok, pure_eq_ok, not_or, not_not]
  constructor
  · rintro ⟨txout, hat, expected, hexpected, -, ⟨hscript, rfl⟩, rfl⟩
    exact ⟨txout, hat, hscript, hexpected, rfl⟩
  · rintro ⟨txout, hat, hscript, hexpected, rfl⟩
    exact ⟨txout, hat, _, hexpected, (), ⟨hscript, rfl⟩, rfl⟩

theorem collateralContinuation_eq_ok {found : BinaryMarketContinuation} :
    collateralContinuation crypto compiled transaction index slot asset amount = .ok found ↔
      ∃ txout, transaction.output[index]? = some txout ∧
        txout.scriptPubkey = crypto.slotScript compiled.params slot ∧
        explicitAssetValue txout = some (asset, amount) ∧
        found = continuation crypto transaction index slot txout := by
  simp only [collateralContinuation, bind_eq_ok, outputAt_eq_ok, require_eq_ok,
    pure_eq_ok, not_or, not_not]
  constructor
  · rintro ⟨txout, hat, -, ⟨hscript, hexplicit⟩, rfl⟩
    exact ⟨txout, hat, hscript, hexplicit, rfl⟩
  · rintro ⟨txout, hat, hscript, hexplicit, rfl⟩
    exact ⟨txout, hat, (), ⟨hscript, hexplicit⟩, rfl⟩

theorem checkRtBurn_eq_ok (leg : RtLeg) :
    checkRtBurn crypto transaction index (rtAssetId compiled.params leg)
        (rtFactors leg side) = .ok u ↔
      RtAt crypto compiled.params transaction index burnScript leg side := by
  simp only [checkRtBurn, bind_eq_ok, outputAt_eq_ok, okOr_eq_ok, require_eq_ok, not_or, not_not]
  constructor
  · rintro ⟨txout, hat, expected, hexpected, hscript, rfl⟩
    exact ⟨txout, hat, hscript, hexpected⟩
  · rintro ⟨txout, hat, hscript, hexpected⟩
    exact ⟨txout, hat, _, hexpected, hscript, rfl⟩

/-- The continuations are the outputs at the given places. -/
def ContinuesAt (crypto : MarketCrypto) (transaction : Transaction)
    (found : List BinaryMarketContinuation) (places : List (ℕ × BinaryMarketSlot)) : Prop :=
  List.Forall₂ (fun item place => ∃ txout, transaction.output[place.1]? = some txout ∧
      item = continuation crypto transaction place.1 place.2 txout) found places

@[simp] theorem continuesAt_nil : ContinuesAt crypto transaction found [] ↔ found = [] :=
  List.forall₂_nil_right_iff

@[simp] theorem continuesAt_cons
    {place : ℕ × BinaryMarketSlot} {places : List (ℕ × BinaryMarketSlot)} :
    ContinuesAt crypto transaction found (place :: places) ↔
      ∃ txout rest, transaction.output[place.1]? = some txout ∧
        ContinuesAt crypto transaction rest places ∧
        found = continuation crypto transaction place.1 place.2 txout :: rest := by
  simp only [ContinuesAt, List.forall₂_cons_right_iff]
  constructor
  · rintro ⟨item, rest, ⟨txout, hat, rfl⟩, hrest, rfl⟩
    exact ⟨txout, rest, hat, hrest, rfl⟩
  · rintro ⟨txout, rest, hat, hrest, rfl⟩
    exact ⟨_, rest, ⟨txout, hat, rfl⟩, hrest, rfl⟩

theorem rtContinuations_eq_ok {yesSlot noSlot : BinaryMarketSlot} :
    rtContinuations crypto compiled transaction base yesSlot noSlot
        (some (rtFactors .yes side)) (some (rtFactors .no side)) = .ok found ↔
      RtPairAt crypto compiled.params transaction base (crypto.slotScript compiled.params yesSlot)
          (crypto.slotScript compiled.params noSlot) side ∧
        ContinuesAt crypto transaction found [(base, yesSlot), (base + 1, noSlot)] := by
  simp only [rtContinuations, bind_eq_ok, okOr_eq_ok, addIndex_eq_ok,
    pure_eq_ok, Option.some.injEq, continuesAt_cons, continuesAt_nil]
  constructor
  · rintro ⟨_, rfl, yes, hyes, _, ⟨rfl, hbound⟩, _, rfl, no, hno, rfl⟩
    obtain ⟨yesOut, hyesAt, hyesScript, hyesSide, rfl⟩ := (rtContinuation_eq_ok .yes).mp hyes
    obtain ⟨noOut, hnoAt, hnoScript, hnoSide, rfl⟩ := (rtContinuation_eq_ok .no).mp hno
    exact ⟨⟨hbound, ⟨yesOut, hyesAt, hyesScript, hyesSide⟩,
      noOut, hnoAt, hnoScript, hnoSide⟩, yesOut, _, hyesAt, ⟨noOut, _, hnoAt, rfl, rfl⟩, rfl⟩
  · rintro ⟨⟨hbound, ⟨yesOut, hyesAt, hyesScript, hyesSide⟩,
      noOut, hnoAt, hnoScript, hnoSide⟩, yesOut', _, hyesAt', ⟨noOut', _, hnoAt', rfl, rfl⟩, rfl⟩
    cases hyesAt.symm.trans hyesAt'
    cases hnoAt.symm.trans hnoAt'
    exact ⟨_, rfl, _, (rtContinuation_eq_ok .yes).mpr
      ⟨yesOut, hyesAt, hyesScript, hyesSide, rfl⟩, _, ⟨rfl, hbound⟩, _, rfl, _,
      (rtContinuation_eq_ok .no).mpr ⟨noOut, hnoAt, hnoScript, hnoSide, rfl⟩, rfl⟩

theorem rtBurns_eq_ok : rtBurns crypto compiled transaction base (some (rtFactors .yes side))
        (some (rtFactors .no side)) = .ok u ↔
      RtPairAt crypto compiled.params transaction base burnScript burnScript
        side := by
  simp only [rtBurns, bind_eq_ok, okOr_eq_ok, addIndex_eq_ok, Option.some.injEq]
  constructor
  · rintro ⟨_, rfl, _, hyes, _, ⟨rfl, hbound⟩, _, rfl, hno⟩
    exact ⟨hbound, (checkRtBurn_eq_ok .yes).mp hyes, (checkRtBurn_eq_ok .no).mp hno⟩
  · rintro ⟨hbound, hyes, hno⟩
    exact ⟨_, rfl, (), (checkRtBurn_eq_ok .yes).mpr hyes, _, ⟨rfl, hbound⟩, _,
      rfl, (checkRtBurn_eq_ok .no).mpr hno⟩

theorem collateralAfter_eq_ok {found : BinaryMarketContinuation} :
    collateralAfter crypto compiled transaction base slot amount = .ok found ↔ base + 2 < 2 ^ 32 ∧
        LockedAt crypto compiled.params transaction (base + 2) slot amount ∧
        ContinuesAt crypto transaction [found] [(base + 2, slot)] := by
  simp only [collateralAfter, bind_eq_ok, addIndex_eq_ok,
    collateralContinuation_eq_ok, continuesAt_cons, continuesAt_nil, List.cons.injEq]
  constructor
  · rintro ⟨_, ⟨rfl, hbound⟩, txout, hat, hscript, hexplicit, rfl⟩
    exact ⟨hbound, ⟨txout, hat, hscript, hexplicit⟩, txout, _, hat, rfl, rfl, rfl⟩
  · rintro ⟨hbound, ⟨txout, hat, hscript, hexplicit⟩, txout', _, hat', rfl, rfl, -⟩
    cases hat.symm.trans hat'
    exact ⟨_, ⟨rfl, hbound⟩, txout, hat, hscript, hexplicit, rfl⟩

/-! ## The input group -/

def groupOutpoints (live : BinaryMarketLiveOutputs)
    (slots : List BinaryMarketSlot) : List OutPoint :=
  slots.filterMap fun slot => (live.forSlot slot).map TrackedContractOutput.outpoint

theorem spendRole_eq_ok {i : ℕ} {role : BinaryMarketInputRole} {outpoint : OutPoint} :
    spendRole live transaction inputBase (role, i) = .ok outpoint ↔
      ∃ tracked input, live.forSlot role.slot = some tracked ∧ inputBase + i < 2 ^ 32 ∧
        transaction.input[inputBase + i]? = some input ∧
        input.previousOutput = tracked.outpoint ∧ outpoint = tracked.outpoint := by
  simp only [spendRole, bind_eq_ok, okOr_eq_ok, addIndex_eq_ok, checkInput,
    require_eq_ok, pure_eq_ok, Option.map_eq_some_iff]
  constructor
  · rintro ⟨tracked, hlive, _, ⟨rfl, hbound⟩, -, ⟨input, hinput, hspends⟩, rfl⟩
    exact ⟨tracked, input, hlive, hbound, hinput, hspends, rfl⟩
  · rintro ⟨tracked, input, hlive, hbound, hinput, hspends, rfl⟩
    exact ⟨tracked, hlive, _, ⟨rfl, hbound⟩, (), ⟨input, hinput, hspends⟩, rfl⟩

theorem spendRoles_eq_ok (roles : List BinaryMarketInputRole) (k : ℕ) {spent : List OutPoint} :
    (roles.zipIdx k).mapM (spendRole live transaction inputBase) = .ok spent ↔
      (∀ entry ∈ (roles.map BinaryMarketInputRole.slot).zipIdx k,
        SpendsAt live transaction entry.1 (inputBase + entry.2)) ∧
        spent = groupOutpoints live (roles.map BinaryMarketInputRole.slot) := by
  induction roles generalizing k spent with
  | nil =>
    simp only [List.zipIdx_nil, List.mapM_nil, pure_eq_ok, List.map_nil,
      List.not_mem_nil, false_imp_iff, implies_true, true_and, groupOutpoints, List.filterMap_nil]
    exact eq_comm
  | cons role roles ih =>
    simp only [List.zipIdx_cons, List.mapM_cons, bind_eq_ok, pure_eq_ok,
      spendRole_eq_ok, ih, List.map_cons, List.forall_mem_cons]
    constructor
    · rintro ⟨_, ⟨tracked, input, hlive, hbound, hinput, hspends, rfl⟩, _, ⟨hrest, rfl⟩, rfl⟩
      refine ⟨⟨⟨tracked, input, hlive, hbound, hinput, hspends⟩, hrest⟩, ?_⟩
      simp [groupOutpoints, hlive]
    · rintro ⟨⟨⟨tracked, input, hlive, hbound, hinput, hspends⟩, hrest⟩, rfl⟩
      refine ⟨_, ⟨tracked, input, hlive, hbound, hinput, hspends, rfl⟩, _, ⟨hrest, rfl⟩, ?_⟩
      simp [groupOutpoints, hlive]

theorem inputRoles_slots
    (hlayout : layout.coordinator = BinaryMarketCoordinatorRole.forState state) :
    layout.inputRoles.map BinaryMarketInputRole.slot = groupSlots state := by
  simp only [BinaryMarketLayout.inputRoles, hlayout]
  match state with
  | .trading 0 | .trading (_ + 1) | .resolvedYes _ | .resolvedNo _
  | .expired _ => rfl

theorem SpendsGroup.input {i : ℕ} (hgroup : SpendsGroup live transaction inputBase state)
    (hslot : (groupSlots state)[i]? = some slot) :
    SpendsAt live transaction slot (inputBase + i) :=
  hgroup (slot, i) (List.mem_zipIdx_iff_getElem?.mpr hslot)

theorem SpendsGroup.inputHasIssuance_iff {i : ℕ}
    (hgroup : SpendsGroup live transaction inputBase state)
    (hslot : (groupSlots state)[i]? = some slot) :
    inputHasIssuance transaction (inputBase + i) = true ↔
      ¬NoIssuanceAt transaction (inputBase + i) := by
  obtain ⟨-, input, -, -, hinput, -⟩ := hgroup.input hslot
  rw [← inputHasIssuance_eq_false hinput, Bool.not_eq_false]

theorem consecutiveSiblings_eq_true {yes no collateral : OutPoint} :
    consecutiveSiblings yes no collateral = .ok true ↔
      yes.vout + 2 < 2 ^ 32 ∧ no = ⟨yes.txid, yes.vout + 1⟩ ∧
        collateral = ⟨yes.txid, yes.vout + 2⟩ := by
  obtain ⟨yesTxid, yesVout⟩ := yes
  obtain ⟨noTxid, noVout⟩ := no
  obtain ⟨collateralTxid, collateralVout⟩ := collateral
  simp only [consecutiveSiblings, OutPoint.mk.injEq]
  split
  · next hother => simp only [pure_eq_ok, Bool.false_eq_true]; grind
  · next htxid =>
    push Not at htxid
    obtain ⟨rfl, rfl⟩ := htxid
    simp only [bind_eq_ok, okOr_eq_ok, checkedAdd_eq_some, true_and]
    constructor
    · rintro ⟨_, ⟨rfl, -⟩, hrest⟩
      split at hrest
      · cases hrest
      · next hno =>
        simp only [bind_eq_ok, okOr_eq_ok, checkedAdd_eq_some, pure_eq_ok,
          decide_eq_true_eq] at hrest
        obtain ⟨_, ⟨rfl, hbound⟩, hcollateral⟩ := hrest
        exact ⟨hbound, not_not.mp hno, hcollateral⟩
    · rintro ⟨hbound, rfl, rfl⟩
      refine ⟨yesVout + 1, ⟨rfl, by omega⟩, ?_⟩
      rw [if_neg (by simp)]
      simp only [bind_eq_ok, okOr_eq_ok, checkedAdd_eq_some, pure_eq_ok, decide_eq_true_eq]
      exact ⟨yesVout + 2, ⟨rfl, hbound⟩, rfl⟩

theorem verifyInputGroup_eq_ok {spent : List OutPoint}
    (hlayout : layout.coordinator = BinaryMarketCoordinatorRole.forState state) :
    verifyInputGroup layout state live transaction inputBase = .ok spent ↔
      SpendsGroup live transaction inputBase state ∧
        spent = groupOutpoints live (groupSlots state) ∧
        verifyGroup layout state live transaction inputBase = .ok () := by
  simp only [verifyInputGroup, bind_eq_ok, pure_eq_ok, spendRoles_eq_ok,
    inputRoles_slots hlayout, SpendsGroup]
  constructor
  · rintro ⟨_, ⟨hgroup, rfl⟩, _, hchecks, rfl⟩
    exact ⟨hgroup, rfl, hchecks⟩
  · rintro ⟨hgroup, rfl, hchecks⟩
    exact ⟨_, ⟨hgroup, rfl⟩, (), hchecks, rfl⟩

theorem SpendsGroup.verifyGroup_dormant {yes no : TrackedContractOutput}
    (hgroup : SpendsGroup ⟨some yes, some no, none⟩ transaction inputBase (.trading 0)) :
    verifyGroup ⟨path, .dormantYesRt⟩ (.trading 0) ⟨some yes, some no, none⟩
        transaction inputBase = .ok () ↔
      Siblings ⟨some yes, some no, none⟩ (.trading 0) ∧
        (path ≠ .initialIssuance → ∀ i ≤ 1, NoIssuanceAt transaction (inputBase + i)) := by
  have hyes := hgroup.inputHasIssuance_iff (i := 0) rfl
  have hno := hgroup.inputHasIssuance_iff (i := 1) rfl
  simp only [add_zero] at hyes
  simp only [verifyGroup, verifyDormantGroup, bind_eq_ok, require_eq_ok,
    okOr_eq_ok, Option.some.injEq, exists_eq_left', exists_const, true_and,
    hyes, hno, siblings_dormant, Nat.le_one_iff_eq_zero_or_eq_one,
    forall_eq_or_imp, forall_eq, add_zero]
  tauto

theorem SpendsGroup.verifyGroup_unresolved {yes no collateral : TrackedContractOutput}
    (hgroup : SpendsGroup ⟨some yes, some no, some collateral⟩ transaction
      inputBase (.trading (n + 1))) :
    verifyGroup ⟨path, .unresolvedYesRt⟩ (.trading (n + 1))
        ⟨some yes, some no, some collateral⟩ transaction inputBase = .ok () ↔
      Siblings ⟨some yes, some no, some collateral⟩ (.trading (n + 1)) ∧
        NoIssuanceAt transaction (inputBase + 2) ∧
        (path ≠ .subsequentIssuance → ∀ i ≤ 2, NoIssuanceAt transaction (inputBase + i)) := by
  have hyes := hgroup.inputHasIssuance_iff (i := 0) rfl
  have hno := hgroup.inputHasIssuance_iff (i := 1) rfl
  have hcollateral := hgroup.inputHasIssuance_iff (i := 2) rfl
  have hthree : ∀ i, i ≤ 2 ↔ i = 0 ∨ i = 1 ∨ i = 2 := by omega
  simp only [add_zero] at hyes
  simp only [verifyGroup, verifyUnresolvedGroup, bind_eq_ok, require_eq_ok,
    okOr_eq_ok, Option.some.injEq, exists_eq_left', exists_const, hyes, hno,
    hcollateral, hthree, forall_eq_or_imp, forall_eq, add_zero, siblings_trading]
  constructor
  · rintro ⟨consecutive, hconsecutive, rfl, hquiet, hissue⟩
    have hsiblings := consecutiveSiblings_eq_true.mp hconsecutive
    tauto
  · rintro ⟨hsiblings, hissue, hquiet⟩
    refine ⟨true, consecutiveSiblings_eq_true.mpr hsiblings, rfl, ?_⟩
    tauto

theorem SpendsGroup.verifyGroup_settled {yes : Bool} {basePayout unit : ℕ}
    {next : ℕ → BinaryMarketState} (hstate : Redeemable basePayout state yes unit amount slot next)
    (hgroup : SpendsGroup live transaction inputBase state) :
    verifyGroup ⟨path, BinaryMarketCoordinatorRole.forState state⟩ state live
        transaction inputBase = .ok () ↔ NoIssuanceAt transaction inputBase := by
  obtain ⟨-, input, -, -, hinput, -⟩ : SpendsAt live transaction slot (inputBase + 0) := by
    cases hstate <;> exact hgroup.input rfl
  rw [add_zero] at hinput
  rw [← inputHasIssuance_eq_false hinput]
  cases hstate <;> simp [verifyGroup, BinaryMarketCoordinatorRole.forState]

/-! ## Economics -/

section

variable {economics : BinaryMarketEconomics} {applied : AppliedBinaryMarketTransition}

theorem apply_issue_eq_ok {pairs : ℕ} : economics.apply (.trading n) (.issue pairs) = .ok applied ↔
      pairs ≠ 0 ∧ (n + pairs) * economics.collateralPerPair < 2 ^ 64 ∧
        applied = ⟨.trading n, .trading (n + pairs),
          .issued pairs (pairs * economics.collateralPerPair)⟩ := by
  have hpos := economics.collateralPerPair_pos
  simp only [BinaryMarketEconomics.apply, BinaryMarketEconomics.validateState,
    BinaryMarketEconomics.issue, BinaryMarketEconomics.requireNonzero,
    bind_eq_ok, require_eq_ok, okOr_eq_ok, pure_eq_ok, collateralForPairs_eq_ok, checkedAdd_eq_some]
  constructor
  · rintro ⟨-, -, -, hpairs, _, ⟨rfl, -⟩, _, ⟨rfl, hbound⟩, _, ⟨rfl, -⟩, rfl⟩
    exact ⟨hpairs, hbound, rfl⟩
  · rintro ⟨hpairs, hbound, rfl⟩
    have hsum : n + pairs < 2 ^ 64 := lt_of_le_of_lt (Nat.le_mul_of_pos_right _ hpos) hbound
    rw [Nat.add_mul] at hbound
    refine ⟨(), ⟨_, ⟨rfl, by omega⟩, trivial⟩, (), hpairs, _, ⟨rfl, hsum⟩, _,
      ⟨rfl, ?_⟩, _, ⟨rfl, by omega⟩, rfl⟩
    rw [Nat.add_mul]
    exact hbound

theorem apply_cancel_eq_ok {m pairs : ℕ} (hbound : m * economics.collateralPerPair < 2 ^ 64) :
    economics.apply (.trading m) (.cancel pairs) = .ok applied ↔ pairs ≠ 0 ∧ ∃ n, m = n + pairs ∧
        applied = ⟨.trading m, .trading n,
          .cancelled pairs (pairs * economics.collateralPerPair) (n == 0)⟩ := by
  simp only [BinaryMarketEconomics.apply, BinaryMarketEconomics.validateState,
    BinaryMarketEconomics.cancel, BinaryMarketEconomics.requireNonzero,
    bind_eq_ok, require_eq_ok, okOr_eq_ok, pure_eq_ok, collateralForPairs_eq_ok, checkedSub_eq_some]
  constructor
  · rintro ⟨-, -, -, hpairs, n, ⟨hle, hm⟩, _, -, _, ⟨rfl, -⟩, rfl⟩
    exact ⟨hpairs, n, by omega, rfl⟩
  · rintro ⟨hpairs, n, rfl, rfl⟩
    have hparts := hbound
    rw [Nat.add_mul] at hparts
    exact ⟨(), ⟨_, ⟨rfl, hbound⟩, trivial⟩, (), hpairs, n, ⟨by omega, by omega⟩, _,
      ⟨rfl, by omega⟩, _, ⟨rfl, by omega⟩, rfl⟩

theorem apply_resolve_eq_ok {outcome : BinaryOutcome}
    (hbound : n * economics.collateralPerPair < 2 ^ 64) :
    economics.apply (.trading n) (.resolve outcome) = .ok applied ↔ applied = ⟨.trading n,
        resolvedState outcome (n * economics.collateralPerPair),
        .resolved outcome (n * economics.collateralPerPair)⟩ := by
  simp only [BinaryMarketEconomics.apply, BinaryMarketEconomics.validateState,
    BinaryMarketEconomics.resolve, bind_eq_ok, pure_eq_ok, collateralForPairs_eq_ok]
  constructor
  · rintro ⟨-, -, _, ⟨rfl, -⟩, rfl⟩
    cases outcome <;> rfl
  · rintro rfl
    exact ⟨(), ⟨_, ⟨rfl, hbound⟩, trivial⟩, _, ⟨rfl, hbound⟩, by cases outcome <;> rfl⟩

theorem apply_expire_eq_ok (hbound : n * economics.collateralPerPair < 2 ^ 64) :
    economics.apply (.trading n) .expire = .ok applied ↔
      applied = ⟨.trading n, .expired (n * economics.collateralPerPair),
        .expired (n * economics.collateralPerPair)⟩ := by
  simp only [BinaryMarketEconomics.apply, BinaryMarketEconomics.validateState,
    BinaryMarketEconomics.expire, bind_eq_ok, pure_eq_ok, collateralForPairs_eq_ok]
  constructor
  · rintro ⟨-, -, _, ⟨rfl, -⟩, rfl⟩
    rfl
  · rintro rfl
    exact ⟨(), ⟨_, ⟨rfl, hbound⟩, trivial⟩, _, ⟨rfl, hbound⟩, rfl⟩

def outcomeOf (yes : Bool) : BinaryOutcome := if yes then .yes else .no

theorem apply_redeem_eq_ok {yes : Bool} {unit tokens : ℕ} {next : ℕ → BinaryMarketState}
    (hstate : Redeemable economics.basePayout state yes unit amount slot next)
    (hwhole : amount % unit = 0) :
    economics.apply state (.redeem (outcomeOf yes) tokens) = .ok applied ↔
      tokens ≠ 0 ∧ tokens * unit < 2 ^ 64 ∧ ∃ remaining, tokens * unit + remaining = amount ∧
        applied = ⟨state, next remaining,
          .redeemed (outcomeOf yes) tokens (tokens * unit) (remaining == 0)⟩ := by
  have hpair := economics.perPair
  have hvalid : economics.validateState state = .ok () := by
    cases hstate <;> simpa [BinaryMarketEconomics.validateState, hpair] using hwhole
  have hterms : economics.redemptionTerms state (outcomeOf yes) = .ok (amount, unit, next) := by
    cases hstate <;> simp only [BinaryMarketEconomics.redemptionTerms, hpair, outcomeOf] <;> rfl
  simp only [BinaryMarketEconomics.apply, hvalid, ok_bind,
    BinaryMarketEconomics.redeem, BinaryMarketEconomics.requireNonzero,
    BinaryMarketEconomics.checkedPayout, hterms, bind_eq_ok, require_eq_ok,
    okOr_eq_ok, pure_eq_ok, checkedMul_eq_some, checkedSub_eq_some]
  constructor
  · rintro ⟨-, htokens, _, ⟨rfl, hbound⟩, remaining, ⟨hle, hamount⟩, rfl⟩
    exact ⟨htokens, hbound, remaining, hamount.symm, rfl⟩
  · rintro ⟨htokens, hbound, remaining, rfl, rfl⟩
    exact ⟨(), htokens, _, ⟨rfl, hbound⟩, remaining, ⟨by omega, rfl⟩, rfl⟩

end

/-! ## The action of a spend -/

theorem issuedPairs_eq_ok {action : BinaryMarketAction} :
    issuedPairs crypto compiled.params ⟨some side, some side⟩ transaction inputBase = .ok action ↔
      ∃ pairs, pairs ≠ 0 ∧ inputBase + 1 < 2 ^ 32 ∧
        ReissuedAt crypto compiled.params transaction inputBase
          compiled.params.yesTokenAssetId .yes side pairs ∧
        ReissuedAt crypto compiled.params transaction (inputBase + 1)
          compiled.params.noTokenAssetId .no side pairs ∧ action = .issue pairs := by
  simp only [issuedPairs, bind_eq_ok, okOr_eq_ok, addIndex_eq_ok, require_eq_ok,
    pure_eq_ok, Option.some.injEq, exists_eq_left', not_or, not_not]
  constructor
  · rintro ⟨yes, hyes, _, ⟨rfl, hbound⟩, no, hno, -, ⟨hne, rfl⟩, rfl⟩
    exact ⟨yes, hne, hbound, (issuanceAmount_eq_ok .yes).mp hyes,
      (issuanceAmount_eq_ok .no).mp hno, rfl⟩
  · rintro ⟨pairs, hne, hbound, hyes, hno, rfl⟩
    exact ⟨pairs, (issuanceAmount_eq_ok .yes).mpr hyes, _, ⟨rfl, hbound⟩, pairs,
      (issuanceAmount_eq_ok .no).mpr hno, (), ⟨hne, rfl⟩, rfl⟩

theorem burnedPairs_eq_ok {offset : ℕ} {action : BinaryMarketAction} :
    burnedPairs compiled.params transaction base offset = .ok action ↔
      ∃ pairs, pairs ≠ 0 ∧ base + (offset + 1) < 2 ^ 32 ∧
        ExplicitAt transaction (base + offset) burnScript compiled.params.yesTokenAssetId pairs ∧
        ExplicitAt transaction (base + (offset + 1)) burnScript
          compiled.params.noTokenAssetId pairs ∧ action = .cancel pairs := by
  simp only [burnedPairs, bind_eq_ok, addIndex_eq_ok, tokenBurnAmount_eq_ok,
    checkTokenBurn_eq_ok, pure_eq_ok]
  constructor
  · rintro ⟨_, ⟨rfl, -⟩, pairs, ⟨hne, hyes⟩, _, ⟨rfl, hbound⟩, -, ⟨-, hno⟩, rfl⟩
    exact ⟨pairs, hne, hbound, hyes, hno, rfl⟩
  · rintro ⟨pairs, hne, hbound, hyes, hno, rfl⟩
    exact ⟨_, ⟨rfl, by omega⟩, pairs, ⟨hne, hyes⟩, _, ⟨rfl, hbound⟩, (), ⟨hne, hno⟩, rfl⟩

theorem cancellationIsFull_eq_ok {full : Bool} :
    cancellationIsFull compiled.params transaction base = .ok full ↔
      base + 2 < 2 ^ 32 ∧ ∃ txout asset amount, transaction.output[base + 2]? = some txout ∧
        explicitAssetValue txout = some (asset, amount) ∧
        if asset = compiled.params.collateralAssetId then full = false
        else full = true ∧ ∃ pairs, pairs ≠ 0 ∧
          ExplicitAt transaction (base + 2) burnScript compiled.params.yesTokenAssetId pairs := by
  simp only [cancellationIsFull, bind_eq_ok, addIndex_eq_ok, outputAt_eq_ok,
    okOr_eq_ok, Prod.exists]
  constructor
  · rintro ⟨_, ⟨rfl, hbound⟩, txout, hat, asset, amount, hexplicit, hshape⟩
    refine ⟨hbound, txout, asset, amount, hat, hexplicit, ?_⟩
    split at hshape
    · next hcollateral =>
      rw [if_pos hcollateral]
      exact (pure_eq_ok.mp hshape).symm
    · next hother =>
      rw [if_neg hother]
      simp only [bind_eq_ok, tokenBurnAmount_eq_ok, pure_eq_ok] at hshape
      obtain ⟨pairs, hburn, rfl⟩ := hshape
      exact ⟨rfl, pairs, hburn⟩
  · rintro ⟨hbound, txout, asset, amount, hat, hexplicit, hshape⟩
    refine ⟨_, ⟨rfl, hbound⟩, txout, hat, asset, amount, hexplicit, ?_⟩
    split at hshape
    · next hcollateral =>
      rw [if_pos hcollateral]
      exact pure_eq_ok.mpr hshape.symm
    · next hother =>
      rw [if_neg hother]
      simp only [bind_eq_ok, tokenBurnAmount_eq_ok, pure_eq_ok]
      obtain ⟨rfl, pairs, hburn⟩ := hshape
      exact ⟨pairs, hburn, rfl⟩

theorem verifyOracleSignature_iff {outcomeYes : Bool} {signature : ℕ}
    (hkey : crypto.validPublicKey compiled.params.oraclePublicKey = true) :
    verifyOracleSignature crypto compiled.params outcomeYes signature = true ↔
      OracleSigned crypto compiled.params outcomeYes signature := by
  simp [verifyOracleSignature, OracleSigned, hkey]

/-! ## Layouts -/

theorem tryFrom_slot (state : BinaryMarketState) : BinaryMarketCoordinatorRole.tryFrom
        (BinaryMarketCoordinatorRole.forState state).slot =
      .ok (BinaryMarketCoordinatorRole.forState state) := by
  match state with
  | .trading 0 | .trading (_ + 1) | .resolvedYes _ | .resolvedNo _
  | .expired _ => rfl

theorem interpretAction_eq_ok {action : BinaryMarketCoordinatorAction}
    {result : BinaryMarketInterpretation}
    (hsides : inferLiveRtSides crypto compiled.params state live = .ok sides)
    (hnew : BinaryMarketEconomics.new compiled.params.basePayout = .ok economics) :
    interpretAction crypto compiled state live transaction inputBase action = .ok result ↔
      ∃ full layout details, fullCancellation compiled.params transaction action = .ok full ∧
        BinaryMarketLayout.forOperation
          (BinaryMarketCoordinatorRole.forState state) action.operation full = .ok layout ∧
        actionDetails crypto compiled.params state transaction action = .ok details ∧
        interpretDecodedAction crypto economics compiled state live sides
          transaction layout inputBase action.outputBase details.1 details.2 = .ok result := by
  simp only [interpretAction, hsides, ok_bind, hnew, liftEconomics, liftLayout,
    tryFrom_slot, Except.mapError, bind_eq_ok]
  constructor
  · rintro ⟨full, hfull, layout, hlayout, details, hdetails, hresult⟩
    exact ⟨full, layout, details, hfull, mapError_eq_ok.mp hlayout, hdetails, hresult⟩
  · rintro ⟨full, layout, details, hfull, hlayout, hdetails, hresult⟩
    exact ⟨full, hfull, layout, mapError_eq_ok.mpr hlayout, details, hdetails, hresult⟩

theorem interpretDecodedAction_eq_ok
    {outputBase tokens : ℕ} {outcomeYes : Bool} {result : BinaryMarketInterpretation}
    (hlayout : layout.coordinator = BinaryMarketCoordinatorRole.forState state) :
    interpretDecodedAction crypto economics compiled state live sides transaction
        layout inputBase outputBase outcomeYes tokens = .ok result ↔
      SpendsGroup live transaction inputBase state ∧
        verifyGroup layout state live transaction inputBase = .ok () ∧
        ∃ action applied continuations, decodedAction crypto compiled.params state sides transaction
            layout.path inputBase outputBase outcomeYes tokens = .ok action ∧
          economics.apply state action = .ok applied ∧
          verifyOutputs crypto compiled transaction layout state live sides
            applied outputBase tokens = .ok continuations ∧
          result = {
            path := layout.path
            action
            before := state
            after := applied.newState
            transition := applied.transition
            inputBase
            outputBase
            spentOutpoints := groupOutpoints live (groupSlots state)
            continuations } := by
  simp only [interpretDecodedAction, bind_eq_ok, liftEconomics_eq_ok,
    verifyInputGroup_eq_ok hlayout, pure_eq_ok]
  constructor
  · rintro ⟨_, ⟨hgroup, rfl, hchecks⟩, action, haction, applied, happly,
      continuations, houtputs, rfl⟩
    exact ⟨hgroup, hchecks, action, applied, continuations, haction, happly, houtputs, rfl⟩
  · rintro ⟨hgroup, hchecks, action, applied, continuations, haction, happly, houtputs, rfl⟩
    exact ⟨_, ⟨hgroup, rfl, hchecks⟩, action, haction, applied, happly,
      continuations, houtputs, rfl⟩

/-! ## Compiled markets -/

/-- What compilation establishes. -/
structure CompiledBinaryMarket.Valid (crypto : MarketCrypto)
    (compiled : CompiledBinaryMarket) : Prop where
  economics : ∃ economics, BinaryMarketEconomics.new compiled.params.basePayout = .ok economics
  expiry : 1 ≤ compiled.params.expiryHeight
  key : crypto.validPublicKey compiled.params.oraclePublicKey = true
  assets : [compiled.params.collateralAssetId, compiled.params.yesTokenAssetId,
    compiled.params.noTokenAssetId, compiled.params.yesReissuanceTokenId,
    compiled.params.noReissuanceTokenId].Nodup
  yesRt : rtCommitmentArguments crypto compiled.params.yesReissuanceTokenId
    .yes = .ok compiled.yesRt
  noRt : rtCommitmentArguments crypto compiled.params.noReissuanceTokenId .no = .ok compiled.noRt

theorem CompiledBinaryMarket.Valid.basePayout_ne
    (hvalid : compiled.Valid crypto) : compiled.params.basePayout ≠ 0 := by
  obtain ⟨economics, hnew⟩ := hvalid.economics
  have hpair := (economics_new_eq_ok hnew).2
  have hpos := economics.collateralPerPair_pos
  omega

theorem CompiledBinaryMarket.Valid.double_basePayout_lt (hvalid : compiled.Valid crypto) :
    2 * compiled.params.basePayout < 2 ^ 64 := by
  obtain ⟨economics, hnew⟩ := hvalid.economics
  rw [← (economics_new_eq_ok hnew).2]
  exact economics.collateralPerPair_lt

theorem CompiledBinaryMarket.Valid.tokens_ne (hvalid : compiled.Valid crypto) :
    compiled.params.yesTokenAssetId ≠ compiled.params.noTokenAssetId := by
  have hassets := hvalid.assets
  intro heq
  simp [heq] at hassets

theorem CompiledBinaryMarket.Valid.token_ne_collateral
    (hvalid : compiled.Valid crypto) (yes : Bool) :
    tokenAssetId compiled.params yes ≠ compiled.params.collateralAssetId := by
  have hassets := hvalid.assets
  intro heq
  cases yes <;> simp [tokenAssetId] at heq <;> simp [heq] at hassets

theorem CompiledBinaryMarket.new_eq_ok
    (hnew : CompiledBinaryMarket.new crypto params = .ok compiled) :
    compiled.params = params ∧ compiled.Valid crypto := by
  simp only [CompiledBinaryMarket.new, bind_eq_ok, pure_eq_ok] at hnew
  obtain ⟨_, hvalid, yesRt, hyes, noRt, hno, rfl⟩ := hnew
  simp only [validateParams] at hvalid
  cases hnew : BinaryMarketEconomics.new params.basePayout with
  | error error =>
    rw [hnew] at hvalid
    cases hvalid
  | ok economics =>
    rw [hnew] at hvalid
    simp only [bind_eq_ok, require_eq_ok] at hvalid
    obtain ⟨-, hexpiry, -, hkey, hassets⟩ := hvalid
    exact ⟨rfl, ⟨economics, hnew⟩, hexpiry.1, hkey, hassets, hyes, hno⟩

/-! ## Soundness -/

/-- What the interpreter reports is a transition of the market. -/
structure Reported (crypto : MarketCrypto) (params : BinaryMarketParams)
    (transaction : Transaction) (side : RtSide) (inputBase : ℕ)
    (state : BinaryMarketState) (live : BinaryMarketLiveOutputs)
    (action : BinaryMarketCoordinatorAction) (result : BinaryMarketInterpretation) : Prop where
  group : SpendsGroup live transaction inputBase state
  siblings : Siblings live state
  spent : result.spentOutpoints = groupOutpoints live (groupSlots state)
  transition : ∃ places, MarketTransition crypto params transaction side inputBase state action
        result.after places ∧ ContinuesAt crypto transaction result.continuations places

theorem tradingCollateral_eq_ok
    (hnew : BinaryMarketEconomics.new compiled.params.basePayout = .ok economics) :
    tradingCollateral (.trading n) compiled.params = .ok amount ↔
      n * (2 * compiled.params.basePayout) = amount ∧ amount < 2 ^ 64 := by
  simp [tradingCollateral, hnew, collateralForPairs_eq_ok, (economics_new_eq_ok hnew).2]

theorem ContinuesAt.append {found' : List BinaryMarketContinuation}
    {places places' : List (ℕ × BinaryMarketSlot)}
    (hfound : ContinuesAt crypto transaction found places)
    (hfound' : ContinuesAt crypto transaction found' places') :
    ContinuesAt crypto transaction (found ++ found') (places ++ places') :=
  List.rel_append hfound hfound'

/-! ## Outputs by path -/

section

variable {base amount tokens : ℕ} {side : RtSide} {state : BinaryMarketState}
  {coordinator : BinaryMarketCoordinatorRole}
  {yes no : TrackedContractOutput} {collateral : Option TrackedContractOutput}
  {applied : AppliedBinaryMarketTransition} {found : List BinaryMarketContinuation}

/-- The outputs of a market which goes on trading are in place. -/
abbrev TradesAt (crypto : MarketCrypto) (params : BinaryMarketParams) (transaction : Transaction)
    (base amount : ℕ) (side : RtSide) (found : List BinaryMarketContinuation) : Prop :=
  base + 2 < 2 ^ 32 ∧
    SlotPairAt crypto params transaction base .unresolvedYesRt .unresolvedNoRt side ∧
    LockedAt crypto params transaction (base + 2) .unresolvedCollateral amount ∧
    ContinuesAt crypto transaction found
      [(base, .unresolvedYesRt), (base + 1, .unresolvedNoRt), (base + 2, .unresolvedCollateral)]

/-- The reissuance tokens are burned, and the collateral of a settled market is
in place. -/
abbrev SettlesAt (crypto : MarketCrypto) (params : BinaryMarketParams) (transaction : Transaction)
    (base : ℕ) (slot : BinaryMarketSlot) (amount : ℕ) (side : RtSide)
    (found : List BinaryMarketContinuation) : Prop :=
  base + 2 < 2 ^ 32 ∧ RtPairAt crypto params transaction base burnScript burnScript side ∧
    LockedAt crypto params transaction (base + 2) slot amount ∧
    ContinuesAt crypto transaction found [(base + 2, slot)]

theorem unresolvedOutputs_eq_ok : (do
      let pair ← rtContinuations crypto compiled transaction base
        .unresolvedYesRt .unresolvedNoRt (some (rtFactors .yes side)) (some (rtFactors .no side))
      let locked ← collateralAfter crypto compiled transaction base .unresolvedCollateral amount
      return pair ++ [locked]) = .ok found ↔
      TradesAt crypto compiled.params transaction base amount side found := by
  simp only [bind_eq_ok, pure_eq_ok, rtContinuations_eq_ok, collateralAfter_eq_ok]
  constructor
  · rintro ⟨pair, ⟨hpair, hfound⟩, locked, ⟨hbound, hexplicit, hat⟩, rfl⟩
    exact ⟨hbound, hpair, hexplicit, hfound.append hat⟩
  · rintro ⟨hbound, hpair, hexplicit, hfound⟩
    simp only [continuesAt_cons, continuesAt_nil] at hfound
    obtain ⟨yesOut, _, hyes, ⟨noOut, _, hno, ⟨lockedOut, _, hlocked, rfl, rfl⟩, rfl⟩, rfl⟩ := hfound
    refine ⟨[_, _], ⟨hpair, ?_⟩, _, ⟨hbound, hexplicit, ?_⟩, rfl⟩
    · simp only [continuesAt_cons, continuesAt_nil]
      exact ⟨yesOut, _, hyes, ⟨noOut, _, hno, rfl, rfl⟩, rfl⟩
    · simp only [continuesAt_cons, continuesAt_nil]
      exact ⟨lockedOut, _, hlocked, rfl, rfl⟩

theorem verifyOutputs_issue (hpath : path = .initialIssuance ∨ path = .subsequentIssuance)
    (hnew : BinaryMarketEconomics.new compiled.params.basePayout = .ok economics)
    (hstate : applied.newState = .trading n) :
    verifyOutputs crypto compiled transaction ⟨path, coordinator⟩ state
        ⟨some yes, some no, collateral⟩ ⟨some side, some side⟩ applied base
        tokens = .ok found ↔
      n * (2 * compiled.params.basePayout) < 2 ^ 64 ∧ TradesAt crypto compiled.params
        transaction base (n * (2 * compiled.params.basePayout)) side.flip found := by
  rw [← unresolvedOutputs_eq_ok]
  rcases hpath with rfl | rfl <;>
  · simp only [verifyOutputs, oppositeSideFactors, ok_bind, hstate, bind_eq_ok, pure_eq_ok,
      tradingCollateral_eq_ok hnew]
    constructor
    · rintro ⟨pair, hpair, _, ⟨rfl, hbound⟩, locked, hlocked, rfl⟩
      exact ⟨hbound, pair, hpair, locked, hlocked, rfl⟩
    · rintro ⟨hbound, pair, hpair, locked, hlocked, rfl⟩
      exact ⟨pair, hpair, _, ⟨rfl, hbound⟩, locked, hlocked, rfl⟩

theorem verifyOutputs_partialCancellation
    (hnew : BinaryMarketEconomics.new compiled.params.basePayout = .ok economics)
    (hstate : applied.newState = .trading n) :
    verifyOutputs crypto compiled transaction ⟨.partialCancellation, coordinator⟩ state
        ⟨some yes, some no, collateral⟩ ⟨some side, some side⟩ applied base
        tokens = .ok found ↔
      n ≠ 0 ∧ n * (2 * compiled.params.basePayout) < 2 ^ 64 ∧ TradesAt crypto compiled.params
        transaction base (n * (2 * compiled.params.basePayout)) side.flip found := by
  rw [← unresolvedOutputs_eq_ok]
  have hpos : 2 * compiled.params.basePayout ≠ 0 := by
    have hperPair := economics.collateralPerPair_pos
    rw [(economics_new_eq_ok hnew).2] at hperPair
    omega
  simp only [verifyOutputs, oppositeSideFactors, ok_bind, hstate, bind_eq_ok,
    pure_eq_ok, tradingCollateral_eq_ok hnew, require_eq_ok]
  constructor
  · rintro ⟨pair, hpair, _, ⟨rfl, hbound⟩, -, hne, locked, hlocked, rfl⟩
    exact ⟨left_ne_zero_of_mul hne, hbound, pair, hpair, locked, hlocked, rfl⟩
  · rintro ⟨hne, hbound, pair, hpair, locked, hlocked, rfl⟩
    exact ⟨pair, hpair, _, ⟨rfl, hbound⟩, (), mul_ne_zero hne hpos, locked, hlocked, rfl⟩

theorem verifyOutputs_fullCancellation :
    verifyOutputs crypto compiled transaction ⟨.fullCancellation, coordinator⟩
        state ⟨some yes, some no, collateral⟩ ⟨some side, some side⟩ applied
        base tokens = .ok found ↔
      applied.newState = .trading 0 ∧
        SlotPairAt crypto compiled.params transaction base .dormantYesRt .dormantNoRt side.flip ∧
        ContinuesAt crypto transaction found [(base, .dormantYesRt), (base + 1, .dormantNoRt)] := by
  simp only [verifyOutputs, oppositeSideFactors, ok_bind, bind_eq_ok,
    require_eq_ok, rtContinuations_eq_ok, exists_const]

theorem settledOutputs_eq_ok : (do
      rtBurns crypto compiled transaction base (some (rtFactors .yes side))
        (some (rtFactors .no side))
      let locked ← collateralAfter crypto compiled transaction base slot amount
      return [locked]) = .ok found ↔
      SettlesAt crypto compiled.params transaction base slot amount side found := by
  simp only [bind_eq_ok, pure_eq_ok, rtBurns_eq_ok, collateralAfter_eq_ok]
  constructor
  · rintro ⟨-, hburned, locked, ⟨hbound, hexplicit, hat⟩, rfl⟩
    exact ⟨hbound, hburned, hexplicit, hat⟩
  · rintro ⟨hbound, hburned, hexplicit, hfound⟩
    obtain ⟨lockedOut, _, hat, hrest, rfl⟩ := continuesAt_cons.mp hfound
    cases continuesAt_nil.mp hrest
    exact ⟨(), hburned, _, ⟨hbound, hexplicit, hfound⟩, rfl⟩

theorem verifyOutputs_activeResolution {outcome : BinaryOutcome}
    (hstate : applied.newState = resolvedState outcome amount) :
    verifyOutputs crypto compiled transaction ⟨.activeResolution, coordinator⟩
        state ⟨some yes, some no, collateral⟩ ⟨some side, some side⟩ applied
        base tokens = .ok found ↔
      SettlesAt crypto compiled.params transaction base (resolvedSlot outcome) amount side.flip
        found := by
  have hterminal : terminalSlotAmount applied.newState = .ok (resolvedSlot outcome, amount) := by
    rw [hstate]
    cases outcome <;> rfl
  rw [← settledOutputs_eq_ok]
  simp only [verifyOutputs, oppositeSideFactors, ok_bind, hterminal]

theorem verifyOutputs_activeExpiry (hstate : applied.newState = .expired amount) :
    verifyOutputs crypto compiled transaction ⟨.activeExpiry, coordinator⟩
        state ⟨some yes, some no, collateral⟩ ⟨some side, some side⟩ applied
        base tokens = .ok found ↔
      SettlesAt crypto compiled.params transaction base .expiredCollateral amount side.flip
        found := by
  have hterminal : terminalSlotAmount applied.newState = .ok (.expiredCollateral, amount) := by
    rw [hstate]
    rfl
  rw [← settledOutputs_eq_ok]
  simp only [verifyOutputs, oppositeSideFactors, ok_bind, hterminal]

theorem verifyOutputs_dormantClosing {path : BinaryMarketPath}
    (hpath : path = .dormantResolution ∨ path = .dormantExpiry) :
    verifyOutputs crypto compiled transaction ⟨path, coordinator⟩
        (.trading 0) ⟨some yes, some no, collateral⟩ ⟨some side, some side⟩
        applied base tokens = .ok found ↔
      RtPairAt crypto compiled.params transaction base burnScript burnScript
        side.flip ∧ found = [] := by
  rcases hpath with rfl | rfl <;>
  · simp only [verifyOutputs, oppositeSideFactors, ok_bind, bind_eq_ok,
      require_eq_ok, rtBurns_eq_ok, pure_eq_ok, exists_const, true_and]
    exact and_congr_right fun _ => eq_comm

end

end DeadcatNode
