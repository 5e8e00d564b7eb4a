import DeadcatNode.InterpretedAction
import DeadcatNode.BinaryMarketSolvency

/-!
# Chains of market spends

A spend which was interpreted leaves outputs from which the next spend can be
interpreted.  Followed from the creation of a market, its states are those of
the economics, and the tracked collateral is the one the state calls for.
-/

namespace DeadcatNode

open Checked

variable {crypto : MarketCrypto} {compiled : CompiledBinaryMarket} {transaction : Transaction}
  {inputBase : ℕ} {side : RtSide} {state : BinaryMarketState} {live : BinaryMarketLiveOutputs}
  {economics : BinaryMarketEconomics} {result : BinaryMarketInterpretation}
  {action : BinaryMarketCoordinatorAction} {params : BinaryMarketParams} {slot : BinaryMarketSlot}

/-! ## Commitments of reissuance tokens -/

def RtCommitmentArguments.asset (arguments : RtCommitmentArguments) : RtSide → CompressedCommitment
  | .a => arguments.assetA
  | .b => arguments.assetB

theorem compressAsset_eq_ok {asset : Confidential.Asset} {commitment : CompressedCommitment} :
    compressAsset asset = .ok commitment ↔
      asset = .confidential commitment.parity commitment.x := by
  cases asset with
  | confidential odd x =>
    simp only [compressAsset, Except.ok.injEq, Confidential.Asset.confidential.injEq]
    constructor
    · rintro rfl
      exact ⟨rfl, rfl⟩
    · rintro ⟨rfl, rfl⟩
      rfl
  | null | explicit => simp [compressAsset]

theorem compressValue_eq_ok {value : Confidential.Value} {commitment : CompressedCommitment} :
    compressValue value = .ok commitment ↔
      value = .confidential commitment.parity commitment.x := by
  cases value with
  | confidential odd x =>
    simp only [compressValue, Except.ok.injEq, Confidential.Value.confidential.injEq]
    constructor
    · rintro rfl
      exact ⟨rfl, rfl⟩
    · rintro ⟨rfl, rfl⟩
      rfl
  | null | explicit => simp [compressValue]

theorem rtCommitmentArguments_commitments {assetId : AssetId} {leg : RtLeg}
    {arguments : RtCommitmentArguments}
    (harguments : rtCommitmentArguments crypto assetId leg = .ok arguments) (side : RtSide) :
    crypto.commitments assetId (rtFactors leg side) =
      some (.confidential (arguments.asset side).parity (arguments.asset side).x,
        .confidential arguments.value.parity arguments.value.x) := by
  simp only [rtCommitmentArguments, bind_eq_ok, okOr_eq_ok, require_eq_ok,
    pure_eq_ok, compressAsset_eq_ok, compressValue_eq_ok, Prod.exists] at harguments
  obtain ⟨_, _, hsideA, _, _, hsideB, assetA, rfl, assetB, rfl, valueA, rfl,
    valueB, rfl, -, rfl, rfl⟩ := harguments
  cases side with
  | a => exact hsideA
  | b => exact hsideB

def CompiledBinaryMarket.rt (compiled : CompiledBinaryMarket) : RtLeg → RtCommitmentArguments
  | .yes => compiled.yesRt
  | .no => compiled.noRt

theorem CompiledBinaryMarket.Valid.commitments (hvalid : compiled.Valid crypto)
    (leg : RtLeg) (side : RtSide) :
    crypto.commitments (rtAssetId compiled.params leg) (rtFactors leg side) =
      some (.confidential ((compiled.rt leg).asset side).parity ((compiled.rt leg).asset side).x,
        .confidential (compiled.rt leg).value.parity (compiled.rt leg).value.x) := by
  cases leg with
  | yes => exact rtCommitmentArguments_commitments hvalid.yesRt side
  | no => exact rtCommitmentArguments_commitments hvalid.noRt side

theorem RtHeld.confidential {leg : RtLeg}
    {tracked : TrackedContractOutput} (hvalid : compiled.Valid crypto)
    (hheld : RtHeld crypto compiled.params leg slot side tracked) :
    tracked.txout.asset.isConfidential = true ∧ tracked.txout.value.isConfidential = true := by
  have hcommitted := (inferSide_eq_some.mp hheld.side).1
  rw [hvalid.commitments leg side] at hcommitted
  simp only [Option.some.injEq, Prod.mk.injEq] at hcommitted
  rw [← hcommitted.1, ← hcommitted.2]
  exact ⟨rfl, rfl⟩

/-! ## Validated outputs -/

theorem HoldsOutputs.validateLiveOutputs (hvalid : compiled.Valid crypto)
    (hholds : HoldsOutputs crypto compiled.params side state live) :
    validateLiveOutputs crypto compiled state live = .ok () := by
  obtain ⟨economics, hnew⟩ := hvalid.economics
  have hpair := (economics_new_eq_ok hnew).2
  have hbase := (economics_new_eq_ok hnew).1
  cases hholds with
  | dormant hyes hno =>
    have hstate : economics.validateState (.trading 0) = .ok () := by
      simp only [BinaryMarketEconomics.validateState, bind_eq_ok,
        collateralForPairs_eq_ok, pure_eq_ok]
      exact ⟨0, ⟨Nat.zero_mul _, by norm_num⟩, trivial⟩
    have hyesConf := hyes.confidential hvalid
    have hnoConf := hno.confidential hvalid
    simp only [DeadcatNode.validateLiveOutputs, hnew, liftEconomics, Except.mapError,
      ok_bind, hstate, bind_eq_ok, checkLiveSlot_eq_ok, checkConfidentialRt_eq_ok, require_eq_ok]
    exact ⟨(), ⟨_, rfl, hyes.script⟩, (), ⟨_, rfl, hno.script⟩, (),
      ⟨_, rfl, hyesConf⟩, (), ⟨_, rfl, hnoConf⟩, trivial⟩
  | @trading n yes no collateral hbound hyes hno hcollateral =>
    rw [← hpair] at hbound
    have hamount := hcollateral.amount
    rw [← hpair] at hamount
    have hlocked : economics.collateralForPairs (n + 1) =
        .ok ((n + 1) * economics.collateralPerPair) :=
      collateralForPairs_eq_ok.mpr ⟨rfl, hbound⟩
    have hstate : economics.validateState (.trading (n + 1)) = .ok () := by
      simp only [BinaryMarketEconomics.validateState, hlocked, ok_bind]
      rfl
    have hyesConf := hyes.confidential hvalid
    have hnoConf := hno.confidential hvalid
    simp only [DeadcatNode.validateLiveOutputs, hnew, liftEconomics, Except.mapError,
      ok_bind, hstate, hlocked, bind_eq_ok, checkLiveSlot_eq_ok,
      checkConfidentialRt_eq_ok, checkExplicitLive_eq_ok]
    exact ⟨(), ⟨_, rfl, hyes.script⟩, (), ⟨_, rfl, hno.script⟩, (),
      ⟨_, rfl, hyesConf⟩, (), ⟨_, rfl, hnoConf⟩, (), ⟨_, rfl, hcollateral.script⟩, _, rfl, hamount⟩
  | @settled state yes unit amount slot next collateral hstate hwhole hcollateral =>
    have hwhole' : economics.validateState state = .ok () := by
      cases hstate <;> simpa [BinaryMarketEconomics.validateState, hpair, hbase] using hwhole
    simp only [DeadcatNode.validateLiveOutputs, hnew, liftEconomics, Except.mapError,
      ok_bind, hwhole']
    cases hstate <;> exact checkTerminalLive_eq_ok.mpr ⟨collateral, rfl, hcollateral⟩

/-! ## The outputs a spend leaves -/

def BinaryMarketLiveOutputs.enter (live : BinaryMarketLiveOutputs)
    (continuation : BinaryMarketContinuation) : BinaryMarketLiveOutputs :=
  match continuation.slot with
  | .dormantYesRt | .unresolvedYesRt =>
    { live with yesRt := some continuation.output }
  | .dormantNoRt | .unresolvedNoRt =>
    { live with noRt := some continuation.output }
  | .unresolvedCollateral | .resolvedYesCollateral | .resolvedNoCollateral
  | .expiredCollateral => { live with collateral := some continuation.output }

def BinaryMarketLiveOutputs.ofContinuations
    (continuations : List BinaryMarketContinuation) : BinaryMarketLiveOutputs :=
  continuations.foldl BinaryMarketLiveOutputs.enter {}

def BinaryMarketLiveOutputs.outpoints (live : BinaryMarketLiveOutputs) : List OutPoint :=
  [live.yesRt, live.noRt, live.collateral].filterMap (Option.map TrackedContractOutput.outpoint)

def BinaryMarketState.Finished : BinaryMarketState → Prop
  | .trading _ => False
  | .resolvedYes collateral | .resolvedNo collateral | .expired collateral =>
    collateral = 0

theorem HoldsOutputs.groupOutpoints (hholds : HoldsOutputs crypto params side state live) :
    groupOutpoints live (groupSlots state) = live.outpoints := by
  cases hholds with
  | dormant => rfl
  | trading => rfl
  | settled hstate => cases hstate <;> rfl

theorem RtHeld.flip {leg : RtLeg} {slot' : BinaryMarketSlot} {index : ℕ}
    {tracked : TrackedContractOutput} {outpoint : OutPoint} {txout : TxOut}
    (hheld : RtHeld crypto params leg slot side tracked)
    (hat : RtAt crypto params transaction index (crypto.slotScript params slot') leg side.flip)
    (hout : transaction.output[index]? = some txout) :
    RtHeld crypto params leg slot' side.flip ⟨outpoint, txout⟩ := by
  obtain ⟨hold, other, hother, hne⟩ := inferSide_eq_some.mp hheld.side
  obtain ⟨found, hfound, hscript, hside⟩ := hat
  cases hout.symm.trans hfound
  cases hside.symm.trans hother
  rw [← RtSide.flip_flip side] at hold
  exact ⟨hscript, inferSide_eq_some.mpr ⟨hside, _, hold, hne.symm⟩⟩

theorem CollateralHeld.of_explicitAt {index amount : ℕ} {txout : TxOut} (outpoint : OutPoint)
    (hat : LockedAt crypto params transaction index slot amount)
    (hout : transaction.output[index]? = some txout) :
    CollateralHeld crypto params slot amount ⟨outpoint, txout⟩ := by
  obtain ⟨found, hfound, hscript, hvalue⟩ := hat
  cases hout.symm.trans hfound
  exact ⟨hscript, hvalue⟩

section

variable {params : BinaryMarketParams} {after : BinaryMarketState}
  {action : BinaryMarketCoordinatorAction} {places : List (ℕ × BinaryMarketSlot)}
  {found : List BinaryMarketContinuation}

theorem HoldsOutputs.rt {n : ℕ} (hholds : HoldsOutputs crypto params side (.trading n) live) :
    ∃ yesSlot noSlot yes no, RtHeld crypto params .yes yesSlot side yes ∧
      RtHeld crypto params .no noSlot side no := by
  cases hholds with
  | dormant hyes hno | trading _ hyes hno => exact ⟨_, _, _, _, hyes, hno⟩
  | settled hstate => cases hstate

theorem HoldsOutputs.bound {n : ℕ} (hholds : HoldsOutputs crypto params side (.trading n) live) :
    n * (2 * params.basePayout) < 2 ^ 64 := by
  cases hholds with
  | dormant => simp
  | trading hbound => exact hbound
  | settled hstate => cases hstate

theorem HoldsOutputs.continued (hpayout : params.basePayout ≠ 0)
    (hholds : HoldsOutputs crypto params side state live)
    (hstep : MarketTransition crypto params transaction side inputBase state action after places)
    (hfound : ContinuesAt crypto transaction found places) :
    (found = [] ∧ after.Finished) ∨
      (found ≠ [] ∧ ¬after.Finished ∧ HoldsOutputs crypto params side.flip after
        (.ofContinuations found)) := by
  cases hstep with
  | @issue n pairs base hpairs hbound hyes hno hquiet hwindow htokens hlocked =>
    obtain ⟨_, _, _, _, hyesHeld, hnoHeld⟩ := hholds.rt
    simp only [continuesAt_cons, continuesAt_nil] at hfound
    obtain ⟨yesOut, _, hyesAt, ⟨noOut, _, hnoAt, ⟨lockedOut, _, hlockedAt, rfl,
      rfl⟩, rfl⟩, rfl⟩ := hfound
    have htotal : n + pairs ≠ 0 := by omega
    obtain ⟨m, hm⟩ := Nat.exists_eq_succ_of_ne_zero htotal
    rw [hm] at hbound hlocked ⊢
    exact .inr ⟨by simp, id, .trading hbound
      (hyesHeld.flip htokens.2.1 hyesAt) (hnoHeld.flip htokens.2.2 hnoAt)
      (.of_explicitAt _ hlocked hlockedAt)⟩
  | @cancelPart n pairs base hpairs hleft hquiet hwindow htokens hlocked hyes hno =>
    obtain ⟨_, _, _, _, hyesHeld, hnoHeld⟩ := hholds.rt
    have hbound : n * (2 * params.basePayout) < 2 ^ 64 :=
      lt_of_le_of_lt (Nat.mul_le_mul_right _ (Nat.le_add_right _ _)) hholds.bound
    simp only [continuesAt_cons, continuesAt_nil] at hfound
    obtain ⟨yesOut, _, hyesAt, ⟨noOut, _, hnoAt, ⟨lockedOut, _, hlockedAt, rfl,
      rfl⟩, rfl⟩, rfl⟩ := hfound
    obtain ⟨m, rfl⟩ := Nat.exists_eq_succ_of_ne_zero hleft
    exact .inr ⟨by simp, id, .trading hbound
      (hyesHeld.flip htokens.2.1 hyesAt) (hnoHeld.flip htokens.2.2 hnoAt)
      (.of_explicitAt _ hlocked hlockedAt)⟩
  | cancelAll hpairs hquiet hwindow htokens hyes hno =>
    obtain ⟨_, _, _, _, hyesHeld, hnoHeld⟩ := hholds.rt
    simp only [continuesAt_cons, continuesAt_nil] at hfound
    obtain ⟨yesOut, _, hyesAt, ⟨noOut, _, hnoAt, rfl, rfl⟩, rfl⟩ := hfound
    exact .inr ⟨by simp, id, .dormant (hyesHeld.flip htokens.2.1 hyesAt)
      (hnoHeld.flip htokens.2.2 hnoAt)⟩
  | @resolve n base resolution hn hquiet hsigned hwindow hburned hlocked =>
    simp only [continuesAt_cons, continuesAt_nil] at hfound
    obtain ⟨lockedOut, _, hlockedAt, rfl, rfl⟩ := hfound
    have hne : n * (2 * params.basePayout) ≠ 0 := Nat.mul_ne_zero hn (by omega)
    have hheld := CollateralHeld.of_explicitAt ⟨crypto.txid transaction, base + 2⟩ hlocked hlockedAt
    have hwhole := Nat.mul_mod_left n (2 * params.basePayout)
    cases houtcome : resolution.outcome with
    | yes =>
      rw [houtcome] at hheld
      exact .inr ⟨by simp, hne, .settled (.resolvedYes _) hwhole hheld⟩
    | no =>
      rw [houtcome] at hheld
      exact .inr ⟨by simp, hne, .settled (.resolvedNo _) hwhole hheld⟩
  | @resolveDormant base resolution hquiet hsigned hburned =>
    have hfinished : (resolvedState resolution.outcome 0).Finished := by
      cases resolution.outcome <;> rfl
    exact .inl ⟨continuesAt_nil.mp hfound, hfinished⟩
  | @expire n base hn hquiet hexpired hwindow hburned hlocked =>
    simp only [continuesAt_cons, continuesAt_nil] at hfound
    obtain ⟨lockedOut, _, hlockedAt, rfl, rfl⟩ := hfound
    have hne : n * (2 * params.basePayout) ≠ 0 := Nat.mul_ne_zero hn (by omega)
    have hwhole : n * (2 * params.basePayout) % params.basePayout = 0 := by
      rw [← Nat.mul_assoc]
      exact Nat.mul_mod_left _ _
    exact .inr ⟨by simp, hne, .settled (.expired _ true) hwhole
      (.of_explicitAt _ hlocked hlockedAt)⟩
  | expireDormant hquiet hexpired hburned =>
    exact .inl ⟨continuesAt_nil.mp hfound, rfl⟩
  | @redeemPart _ yes unit amount remaining tokens base slot next hstate htokens
      hleft hpaid hbound hquiet hwindow hlocked hburned =>
      have hwhole := (hholds.of_redeemable hstate).1
      rw [← hpaid, Nat.add_comm, Nat.add_mul_mod_self_right] at hwhole
      simp only [continuesAt_cons, continuesAt_nil] at hfound
      obtain ⟨lockedOut, _, hlockedAt, rfl, rfl⟩ := hfound
      have hheld := CollateralHeld.of_explicitAt ⟨crypto.txid transaction, base⟩ hlocked hlockedAt
      cases hstate with
      | resolvedYes =>
        exact .inr ⟨by simp, hleft, .settled (.resolvedYes _) hwhole hheld⟩
      | resolvedNo =>
        exact .inr ⟨by simp, hleft, .settled (.resolvedNo _) hwhole hheld⟩
      | expired =>
        exact .inr ⟨by simp, hleft, .settled (.expired _ yes) hwhole hheld⟩
  | redeemAll hstate htokens hpaid hbound hquiet hburned =>
    have hnil := continuesAt_nil.mp hfound
    cases hstate <;> exact .inl ⟨hnil, rfl⟩

end

/-! ## Along a chain of spends -/

theorem BinaryMarketLayout.forOperation_coordinator {coordinator : BinaryMarketCoordinatorRole}
    {operation : BinaryMarketOperation} {full : Option Bool} {layout : BinaryMarketLayout}
    (hlayout : forOperation coordinator operation full = .ok layout) :
    layout.coordinator = coordinator := by
  rcases full with _ | _ | _ <;> cases coordinator <;> cases operation <;> cases hlayout <;> rfl

theorem MarketTransition.trading_before {after : BinaryMarketState}
    {places : List (ℕ × BinaryMarketSlot)} {n : ℕ}
    (hstep : MarketTransition crypto params transaction side inputBase state action after places)
    (hafter : after = .trading n) : ∃ m, state = .trading m := by
  cases hstep with
  | redeemPart hstate | redeemAll hstate => cases hstate <;> cases hafter
  | _ => exact ⟨_, rfl⟩

theorem interpretAction_apply {sides : BinaryMarketRtSides}
    (hsides : inferLiveRtSides crypto compiled.params state live = .ok sides)
    (hnew : BinaryMarketEconomics.new compiled.params.basePayout = .ok economics)
    (hresult : interpretAction crypto compiled state live transaction inputBase
      action = .ok result) :
    ∃ applied, economics.apply state result.action = .ok applied ∧
      result.after = applied.newState := by
  have hstages := (interpretAction_eq_ok hsides hnew).mp hresult
  obtain ⟨full, layout, details, -, hlayout, -, hdecoded⟩ := hstages
  have hcoordinator := BinaryMarketLayout.forOperation_coordinator hlayout
  obtain ⟨-, -, action, applied, found, -, happly, -, rfl⟩ :=
    (interpretDecodedAction_eq_ok hcoordinator).mp hdecoded
  exact ⟨applied, happly, rfl⟩

structure SpendKept (crypto : MarketCrypto) (compiled : CompiledBinaryMarket)
    (live : BinaryMarketLiveOutputs) (sides : BinaryMarketRtSides)
    (result : BinaryMarketInterpretation) : Prop where
  spent : result.spentOutpoints = live.outpoints
  finished : result.continuations = [] ↔ result.after.Finished
  validated : result.continuations ≠ [] → validateLiveOutputs crypto compiled result.after
      (.ofContinuations result.continuations) = .ok ()
  sides : result.continuations ≠ [] → ∃ next, inferLiveRtSides crypto compiled.params result.after
        (.ofContinuations result.continuations) = .ok next ∧
      ∀ n, result.after = .trading n → ∃ side, sides = ⟨some side, some side⟩ ∧
          next = ⟨some side.flip, some side.flip⟩

/-- States and live outputs of a market, from its creation on side A. -/
inductive SpendChain (crypto : MarketCrypto) (compiled : CompiledBinaryMarket) :
    BinaryMarketState → BinaryMarketLiveOutputs → Prop where
  | created {live : BinaryMarketLiveOutputs}
      (hlive : validateLiveOutputs crypto compiled (.trading 0) live = .ok ())
      (hsides : inferLiveRtSides crypto compiled.params (.trading 0) live =
        .ok ⟨some .a, some .a⟩) : SpendChain crypto compiled (.trading 0) live
  | spend {state : BinaryMarketState} {live : BinaryMarketLiveOutputs}
      {transaction : Transaction} {inputBase : ℕ} {action : BinaryMarketCoordinatorAction}
      {result : BinaryMarketInterpretation} (hchain : SpendChain crypto compiled state live)
      (hspend : interpretAction crypto compiled state live transaction inputBase
        action = .ok result) :
      SpendChain crypto compiled result.after (.ofContinuations result.continuations)

/-- The collateral output, if there is one, holds what the state calls for. -/
def CollateralExact (economics : BinaryMarketEconomics)
    (params : BinaryMarketParams) (state : BinaryMarketState)
    (live : BinaryMarketLiveOutputs) : Prop :=
  match live.collateral with
  | some output => explicitAssetValue output.txout =
      some (params.collateralAssetId, economics.stateCollateral state)
  | none => economics.stateCollateral state = 0

/-- A market either holds its outputs or has come to its end. -/
def Held (crypto : MarketCrypto) (compiled : CompiledBinaryMarket)
    (state : BinaryMarketState) (live : BinaryMarketLiveOutputs) : Prop :=
  (state.Finished ∧ live = {}) ∨ ∃ side, HoldsOutputs crypto compiled.params side state live

theorem HoldsOutputs.collateralExact
    (hnew : BinaryMarketEconomics.new params.basePayout = .ok economics)
    (hholds : HoldsOutputs crypto params side state live) :
    CollateralExact economics params state live := by
  have hpair := (economics_new_eq_ok hnew).2
  cases hholds with
  | dormant => exact Nat.mul_zero _
  | @trading n yes no collateral hbound hyes hno hcollateral =>
    have hamount := hcollateral.amount
    rw [← hpair, Nat.mul_comm] at hamount
    exact hamount
  | settled hstate hwhole hcollateral =>
    cases hstate <;> exact hcollateral.amount

theorem Held.collateralExact
    (hnew : BinaryMarketEconomics.new compiled.params.basePayout = .ok economics)
    (hheld : Held crypto compiled state live) :
    CollateralExact economics compiled.params state live := by
  rcases hheld with ⟨hfinished, rfl⟩ | ⟨side, hholds⟩
  · cases state with
    | trading => exact hfinished.elim
    | resolvedYes | resolvedNo | expired => exact hfinished
  · exact hholds.collateralExact hnew

theorem not_interpretAction_of_finished
    (hvalid : compiled.Valid crypto) (hfinished : state.Finished) :
    interpretAction crypto compiled state {} transaction inputBase action ≠ .ok result := by
  intro hresult
  obtain ⟨economics, hnew⟩ := hvalid.economics
  obtain ⟨slot, hslot⟩ : ∃ slot, groupSlots state = [slot] := by
    cases state with
    | trading => exact hfinished.elim
    | resolvedYes | resolvedNo | expired => exact ⟨_, rfl⟩
  have hsides : inferLiveRtSides crypto compiled.params state {} = .ok {} := by
    cases state with
    | trading => exact hfinished.elim
    | resolvedYes | resolvedNo | expired => rfl
  have hstages := (interpretAction_eq_ok hsides hnew).mp hresult
  obtain ⟨full, layout, details, -, hlayout, -, hdecoded⟩ := hstages
  have hcoordinator := BinaryMarketLayout.forOperation_coordinator hlayout
  have hgroup := ((interpretDecodedAction_eq_ok hcoordinator).mp hdecoded).1
  obtain ⟨tracked, -, hlive, -⟩ := hgroup (slot, 0) (by rw [hslot]; simp)
  cases slot <;> cases hlive

theorem HoldsOutputs.spendKept
    (hvalid : compiled.Valid crypto) (hholds : HoldsOutputs crypto compiled.params side state live)
    (hresult : interpretAction crypto compiled state live transaction inputBase
      action = .ok result) :
    SpendKept crypto compiled live (sidesOf side state) result ∧
      Held crypto compiled result.after (.ofContinuations result.continuations) := by
  have hreported := reported_of_interpretAction hvalid hholds hresult
  obtain ⟨places, hstep, hfound⟩ := hreported.transition
  have hspent := hreported.spent.trans hholds.groupOutpoints
  rcases hholds.continued hvalid.basePayout_ne hstep hfound with
    ⟨hnil, hfinished⟩ | ⟨hne, hgoing, hafter⟩
  · refine ⟨⟨hspent, iff_of_true hnil hfinished, ?_, ?_⟩, .inl ⟨hfinished, ?_⟩⟩
    · exact fun hne => absurd hnil hne
    · exact fun hne => absurd hnil hne
    · rw [hnil]
      rfl
  · refine ⟨⟨hspent, iff_of_false hne hgoing, ?_, ?_⟩, .inr ⟨_, hafter⟩⟩
    · exact fun _ => hafter.validateLiveOutputs hvalid
    · intro _
      refine ⟨_, hafter.inferLiveRtSides, fun n hn => ⟨side, ?_, by rw [hn]; rfl⟩⟩
      obtain ⟨m, rfl⟩ := hstep.trading_before hn
      rfl

theorem BinaryMarketEconomics.run_append_step
    (economics : BinaryMarketEconomics) {actions : List BinaryMarketAction}
    {action : BinaryMarketAction} {history next : MarketHistory}
    (hrun : economics.run actions = .ok history)
    (hstep : economics.step history action = .ok next) :
    economics.run (actions ++ [action]) = .ok next := by
  unfold run at hrun ⊢
  rw [List.foldlM_append, hrun]
  simp only [ok_bind, List.foldlM_cons, List.foldlM_nil, hstep]
  rfl

/-- Every state of a chain is a state of the economics, with its outputs. -/
theorem SpendChain.held_reachable (hvalid : compiled.Valid crypto)
    (hnew : BinaryMarketEconomics.new compiled.params.basePayout = .ok economics)
    (hchain : SpendChain crypto compiled state live) :
    Held crypto compiled state live ∧ ∃ actions history,
      economics.run actions = .ok history ∧ history.state = state := by
  induction hchain with
  | created hlive hsides =>
    obtain ⟨side, hholds, -⟩ := holdsOutputs_of_validated hlive hsides
    exact ⟨.inr ⟨side, hholds⟩, [], .initial, rfl, rfl⟩
  | spend hchain hspend ih =>
    obtain ⟨hheld, actions, history, hrun, hstate⟩ := ih
    rcases hheld with ⟨hfinished, rfl⟩ | ⟨side, hholds⟩
    · exact absurd hspend (not_interpretAction_of_finished hvalid hfinished)
    · have hkept := (hholds.spendKept hvalid hspend).2
      obtain ⟨applied, happly, hafter⟩ := interpretAction_apply hholds.inferLiveRtSides hnew hspend
      rw [← hstate] at happly
      have hstep := BinaryMarketEconomics.step_eq_ok.mpr ⟨applied, happly, rfl⟩
      exact ⟨hkept, _, _, economics.run_append_step hrun hstep, hafter.symm⟩

/-- A spend which was interpreted uses up exactly the live outputs.  Unless the
market comes to its end, what it leaves passes the checks on live outputs, with
both tokens on the other side; and from its creation on, a market is in a state
of the economics and its collateral output holds what that state calls for. -/
theorem spends_stay_interpretable {params : BinaryMarketParams}
    (hcompiled : CompiledBinaryMarket.new crypto params = .ok compiled) :
    (∀ state live sides transaction inputBase action result,
      validateLiveOutputs crypto compiled state live = .ok () →
      inferLiveRtSides crypto compiled.params state live = .ok sides →
      interpretAction crypto compiled state live transaction inputBase action = .ok result →
      SpendKept crypto compiled live sides result) ∧
    ∃ economics, BinaryMarketEconomics.new params.basePayout = .ok economics ∧
      ∀ state live, SpendChain crypto compiled state live →
        (∃ actions history, economics.run actions = .ok history ∧ history.state = state) ∧
        CollateralExact economics params state live := by
  obtain ⟨rfl, hvalid⟩ := CompiledBinaryMarket.new_eq_ok hcompiled
  obtain ⟨economics, hnew⟩ := hvalid.economics
  constructor
  · intro state live sides transaction inputBase action result hlive hsides hresult
    obtain ⟨side, hholds, rfl⟩ := holdsOutputs_of_validated hlive hsides
    exact (hholds.spendKept hvalid hresult).1
  · refine ⟨economics, hnew, fun state live hchain => ?_⟩
    obtain ⟨hheld, hreachable⟩ := hchain.held_reachable hvalid hnew
    exact ⟨hreachable, hheld.collateralExact hnew⟩

def sampleCompiled : CompiledBinaryMarket where
  params := sampleParams
  yesRt := ⟨⟨true, 21⟩, ⟨false, 21⟩, ⟨false, 21⟩⟩
  noRt := ⟨⟨true, 39⟩, ⟨false, 39⟩, ⟨false, 39⟩⟩

def sampleLive : BinaryMarketLiveOutputs where
  yesRt := some ⟨⟨11, 0⟩,
    { asset := .confidential true 21
      value := .confidential false 21
      scriptPubkey := sampleSlotScript sampleParams .dormantYesRt }⟩
  noRt := some ⟨⟨11, 1⟩,
    { asset := .confidential true 39
      value := .confidential false 39
      scriptPubkey := sampleSlotScript sampleParams .dormantNoRt }⟩

theorem first_issuance_stays_interpretable : ∃ result,
    interpretAction sampleCrypto sampleCompiled (.trading 0) sampleLive
        issueTransaction 0 (.issue 0) = .ok result ∧
      result.after = .trading 5 ∧ result.continuations.length = 3 ∧
      SpendKept sampleCrypto sampleCompiled sampleLive ⟨some .a, some .a⟩
        result := by
  have hcompiled : CompiledBinaryMarket.new sampleCrypto sampleParams =
    .ok sampleCompiled := by decide +kernel
  have hlive : validateLiveOutputs sampleCrypto sampleCompiled (.trading 0)
    sampleLive = .ok () := by decide +kernel
  have hsides : inferLiveRtSides sampleCrypto sampleCompiled.params (.trading 0)
    sampleLive = .ok ⟨some .a, some .a⟩ := by decide +kernel
  have hissued : isOkAnd (interpretAction sampleCrypto sampleCompiled
      (.trading 0) sampleLive issueTransaction 0 (.issue 0))
      (fun result => result.after = .trading 5 ∧
        result.continuations.length = 3) = true := by decide +kernel
  obtain ⟨result, hresult, hafter⟩ := isOkAnd_iff.mp hissued
  obtain ⟨hstate, hcount⟩ := of_decide_eq_true hafter
  exact ⟨result, hresult, hstate, hcount, (spends_stay_interpretable hcompiled).1
    _ _ _ _ _ _ _ hlive hsides hresult⟩

def expiryTransaction : Transaction where
  lockTime := 10
  input := [
    { previousOutput := ⟨11, 0⟩, sequence := 0 }, { previousOutput := ⟨11, 1⟩, sequence := 0 }]
  output := [
    { asset := .confidential false 21
      value := .confidential false 21
      scriptPubkey := burnScript },
    { asset := .confidential false 39
      value := .confidential false 39
      scriptPubkey := burnScript }]

/-- The expiry of a dormant market leaves no output, and an empty set of live
outputs is not accepted for the expired market. -/
theorem dormant_expiry_leaves_nothing :
    CompiledBinaryMarket.new sampleCrypto sampleParams = .ok sampleCompiled ∧
    validateLiveOutputs sampleCrypto sampleCompiled (.trading 0) sampleLive = .ok () ∧
    inferLiveRtSides sampleCrypto sampleParams (.trading 0) sampleLive = .ok ⟨some .a, some .a⟩ ∧
    ∃ result, interpretAction sampleCrypto sampleCompiled (.trading 0) sampleLive
        expiryTransaction 0 (.expire 0) = .ok result ∧
      result.after = .expired 0 ∧
      validateLiveOutputs sampleCrypto sampleCompiled result.after
          (.ofContinuations result.continuations) =
        .error (.invalidTrackedOutput "missing slot output") := by
  refine ⟨by decide +kernel, by decide +kernel, by decide +kernel, ?_⟩
  have hexpired : isOkAnd (interpretAction sampleCrypto sampleCompiled
      (.trading 0) sampleLive expiryTransaction 0 (.expire 0))
      (fun result => result.after = .expired 0 ∧
        validateLiveOutputs sampleCrypto sampleCompiled result.after
          (.ofContinuations result.continuations) =
            .error (.invalidTrackedOutput "missing slot output")) = true := by
    decide +kernel
  obtain ⟨result, hresult, hafter⟩ := isOkAnd_iff.mp hexpired
  exact ⟨result, hresult, of_decide_eq_true hafter⟩

end DeadcatNode
