import DeadcatNode.InterpretedTransition

/-!
# Interpreted actions are transitions

One state and one action at a time, the interpreter reports a transition of the
market, and every transition of the market is reported.
-/

namespace DeadcatNode

open Checked

variable {crypto : MarketCrypto} {compiled : CompiledBinaryMarket} {transaction : Transaction}
  {inputBase : ℕ} {side : RtSide} {result : BinaryMarketInterpretation} {basePayout : ℕ}
  {params : BinaryMarketParams} {resolution : BinaryMarketResolution} {next : ℕ → BinaryMarketState}
  {state : BinaryMarketState} {slot : BinaryMarketSlot} {sides : BinaryMarketRtSides} {yes : Bool}
  {amount unit : ℕ} {applied : AppliedBinaryMarketTransition}
  (hstate : Redeemable basePayout state yes unit amount slot next)

/-! ## Redemptions -/

def Pays (state : BinaryMarketState) (yes : Bool) : Prop :=
  match state with
  | .trading _ => False
  | .resolvedYes _ => yes = true
  | .resolvedNo _ => yes = false
  | .expired _ => True

include hstate in
theorem Redeemable.pays : Pays state yes := by
  cases hstate <;> simp [Pays]

include hstate in
theorem Redeemable.siblings {live : BinaryMarketLiveOutputs} : Siblings live state := by
  cases hstate <;> trivial

def BurnIndex (params : BinaryMarketParams) (transaction : Transaction) (base index : ℕ) : Prop :=
  ∃ txout asset amount, transaction.output[base]? = some txout ∧
    explicitAssetValue txout = some (asset, amount) ∧
    if asset = params.collateralAssetId then
      index = base + 1 ∧ base + 1 < 2 ^ 32
    else index = base

theorem redemptionBurnIndex_eq_ok {base index : ℕ} :
    redemptionBurnIndex params transaction base = .ok index ↔
      BurnIndex params transaction base index := by
  simp only [redemptionBurnIndex, bind_eq_ok, outputAt_eq_ok, okOr_eq_ok, Prod.exists, BurnIndex]
  constructor
  · rintro ⟨txout, hout, asset, amount, hvalue, hindex⟩
    refine ⟨txout, asset, amount, hout, hvalue, ?_⟩
    split_ifs at hindex ⊢
    · exact addIndex_eq_ok.mp hindex
    · exact (Except.ok.inj hindex).symm
  · rintro ⟨txout, asset, amount, hout, hvalue, hindex⟩
    refine ⟨txout, hout, asset, amount, hvalue, ?_⟩
    split_ifs at hindex ⊢
    · exact addIndex_eq_ok.mpr hindex
    · rw [hindex]

theorem pays_of_redemptionSide {index : ℕ}
    (hside : redemptionSide params state transaction index = .ok yes) : Pays state yes := by
  cases state with
  | trading => cases hside
  | resolvedYes | resolvedNo => exact (Except.ok.inj hside).symm
  | expired => trivial

theorem redemptionSide_eq_ok {index tokens : ℕ}
    (htokens : params.yesTokenAssetId ≠ params.noTokenAssetId) (hpays : Pays state yes)
    (hburn : ExplicitAt transaction index burnScript (tokenAssetId params yes) tokens) :
    redemptionSide params state transaction index = .ok yes := by
  cases state with
  | trading => cases hpays
  | resolvedYes | resolvedNo => cases hpays; rfl
  | expired =>
    obtain ⟨burned, hat, -, hasset⟩ := hburn
    simp only [redemptionSide, bind_eq_ok, outputAt_eq_ok, okOr_eq_ok, Prod.exists]
    refine ⟨burned, hat, _, _, hasset, ?_⟩
    cases yes with
    | true => simp [tokenAssetId]
    | false => simp [tokenAssetId, htokens.symm]

theorem redemptionDetails_eq_ok {base tokens : ℕ}
    (htokens : params.yesTokenAssetId ≠ params.noTokenAssetId) :
    redemptionDetails params state transaction base = .ok (yes, tokens) ↔
      Pays state yes ∧ ∃ index, BurnIndex params transaction base index ∧
        tokens ≠ 0 ∧ ExplicitAt transaction index burnScript (tokenAssetId params yes) tokens := by
  simp only [redemptionDetails, bind_eq_ok, redemptionBurnIndex_eq_ok,
    pure_eq_ok, tokenBurnAmount_eq_ok, Prod.mk.injEq]
  constructor
  · rintro ⟨index, hindex, _, hside, _, ⟨hne, hburn⟩, rfl, rfl⟩
    exact ⟨pays_of_redemptionSide hside, index, hindex, hne, hburn⟩
  · rintro ⟨hpays, index, hindex, hne, hburn⟩
    exact ⟨index, hindex, yes, redemptionSide_eq_ok htokens hpays hburn, tokens,
      ⟨hne, hburn⟩, rfl, rfl⟩

section

variable {base tokens remaining : ℕ} {found : List BinaryMarketContinuation}

include hstate in
theorem Redeemable.terminalCollateral_next (remaining : ℕ) :
    terminalCollateral (next remaining) = some (slot, remaining) := by
  cases hstate <;> rfl

theorem outcomeAsset_outcomeOf (params : BinaryMarketParams) (yes : Bool) :
    outcomeAsset params (outcomeOf yes) = tokenAssetId params yes := by
  cases yes <;> rfl

theorem verifyRedemption_part {payout : ℕ} {drained : Bool}
    (hstate : Redeemable compiled.params.basePayout state yes unit amount slot
      next)
    (hleft : remaining ≠ 0) :
    verifyRedemption crypto compiled transaction ⟨state, next remaining,
        .redeemed (outcomeOf yes) tokens payout drained⟩ base tokens = .ok found ↔
      tokens ≠ 0 ∧ base + 1 < 2 ^ 32 ∧
        LockedAt crypto compiled.params transaction base slot remaining ∧
        ExplicitAt transaction (base + 1) burnScript (tokenAssetId compiled.params yes) tokens ∧
        ContinuesAt crypto transaction found [(base, slot)] := by
  simp only [verifyRedemption, hstate.terminalCollateral_next, actionOutcome,
    Nat.pos_of_ne_zero hleft, if_true, bind_eq_ok, require_eq_ok, pure_eq_ok,
    ok_bind, outcomeAsset_outcomeOf,
    collateralContinuation_eq_ok, addIndex_eq_ok,
    checkTokenBurn_eq_ok, continuesAt_cons, continuesAt_nil]
  constructor
  · rintro ⟨-, hne, _, ⟨txout, hat, hscript, hvalue, rfl⟩, _, ⟨rfl, hbound⟩, -, ⟨-, hburned⟩, rfl⟩
    exact ⟨hne, hbound, ⟨txout, hat, hscript, hvalue⟩, hburned, txout, _, hat, rfl, rfl⟩
  · rintro ⟨hne, hbound, ⟨txout, hat, hscript, hvalue⟩, hburned, txout', _, hat', rfl, rfl⟩
    cases hat.symm.trans hat'
    exact ⟨(), hne, _, ⟨txout, hat, hscript, hvalue, rfl⟩, _, ⟨rfl, hbound⟩,
      (), ⟨hne, hburned⟩, rfl⟩

theorem verifyRedemption_all {payout : ℕ} {drained : Bool}
    (hstate : Redeemable compiled.params.basePayout state yes unit amount slot
      next) :
    verifyRedemption crypto compiled transaction ⟨state, next 0,
        .redeemed (outcomeOf yes) tokens payout drained⟩ base tokens = .ok found ↔
      tokens ≠ 0 ∧ ExplicitAt transaction base burnScript
          (tokenAssetId compiled.params yes) tokens ∧ found = [] := by
  simp only [verifyRedemption, hstate.terminalCollateral_next, actionOutcome,
    lt_irrefl, if_false, bind_eq_ok, require_eq_ok, pure_eq_ok, ok_bind,
    outcomeAsset_outcomeOf, checkTokenBurn_eq_ok]
  constructor
  · rintro ⟨-, hne, -, ⟨-, hburned⟩, rfl⟩
    exact ⟨hne, hburned, rfl⟩
  · rintro ⟨hne, hburned, rfl⟩
    exact ⟨(), hne, (), ⟨hne, hburned⟩, rfl⟩

include hstate in
theorem Redeemable.of_pays {yes' : Bool} (hpays : Pays state yes') :
    Redeemable basePayout state yes' unit amount slot next := by
  cases hstate with
  | resolvedYes => cases hpays; exact .resolvedYes _
  | resolvedNo => cases hpays; exact .resolvedNo _
  | expired => exact .expired _ _

include hstate in
theorem Redeemable.terms_unique {yes' : Bool}
    {unit' amount' : ℕ} {slot' : BinaryMarketSlot} {next' : ℕ → BinaryMarketState}
    (hstate' : Redeemable basePayout state yes' unit' amount' slot' next') :
    unit = unit' ∧ amount = amount' ∧ slot = slot' := by
  cases hstate <;> cases hstate' <;> exact ⟨rfl, rfl, rfl⟩

include hstate in
theorem Redeemable.sidesOf : sidesOf side state = {} := by
  cases hstate <;> rfl

def redemptionPath : BinaryMarketState → BinaryMarketPath
  | .expired _ => .expiryRedemption
  | _ => .resolvedRedemption

include hstate in
theorem Redeemable.forOperation :
    BinaryMarketLayout.forOperation (BinaryMarketCoordinatorRole.forState state)
        .redeem none = .ok ⟨redemptionPath state, BinaryMarketCoordinatorRole.forState state⟩ := by
  cases hstate <;> rfl

include hstate in
theorem Redeemable.decodedAction :
    decodedAction crypto params state sides transaction (redemptionPath state)
        inputBase base yes tokens = .ok (.redeem (outcomeOf yes) tokens) := by
  cases hstate <;> rfl

include hstate in
theorem Redeemable.verifyOutputs {coordinator : BinaryMarketCoordinatorRole}
    {collateral : Option TrackedContractOutput} :
    verifyOutputs crypto compiled transaction
        ⟨redemptionPath state, coordinator⟩ state ⟨none, none, collateral⟩ {}
        applied base tokens = verifyRedemption crypto compiled transaction applied base tokens := by
  cases hstate <;> rfl

end

/-! ## One layout at a time -/

/-- The stages which remain once the layout of a spend is known. -/
structure Stages (crypto : MarketCrypto) (compiled : CompiledBinaryMarket)
    (economics : BinaryMarketEconomics) (state : BinaryMarketState)
    (live : BinaryMarketLiveOutputs) (sides : BinaryMarketRtSides)
    (transaction : Transaction) (path : BinaryMarketPath) (inputBase : ℕ)
    (action : BinaryMarketCoordinatorAction) (details : Bool × ℕ)
    (decoded : BinaryMarketAction) (applied : AppliedBinaryMarketTransition)
    (found : List BinaryMarketContinuation) : Prop where
  reads : actionDetails crypto compiled.params state transaction action = .ok details
  group : SpendsGroup live transaction inputBase state
  checks : verifyGroup ⟨path, BinaryMarketCoordinatorRole.forState state⟩ state
    live transaction inputBase = .ok ()
  decodes : decodedAction crypto compiled.params state sides transaction path
    inputBase action.outputBase details.1 details.2 = .ok decoded
  applies : economics.apply state decoded = .ok applied
  outputs : verifyOutputs crypto compiled transaction
    ⟨path, BinaryMarketCoordinatorRole.forState state⟩ state live sides applied
    action.outputBase details.2 = .ok found

section

variable {state : BinaryMarketState} {live : BinaryMarketLiveOutputs}
  {economics : BinaryMarketEconomics} {action : BinaryMarketCoordinatorAction} {full : Option Bool}
  {path : BinaryMarketPath}
  (hsides : inferLiveRtSides crypto compiled.params state live = .ok (sidesOf side state))
  (hnew : BinaryMarketEconomics.new compiled.params.basePayout = .ok economics)
  (hfull : fullCancellation compiled.params transaction action = .ok full)
  (hlayout : BinaryMarketLayout.forOperation
    (BinaryMarketCoordinatorRole.forState state) action.operation full =
      .ok ⟨path, BinaryMarketCoordinatorRole.forState state⟩)

/-- The outputs of the market lie as they should, and the spend makes a transition
with the continuations which were found. -/
def Transits (crypto : MarketCrypto) (params : BinaryMarketParams) (transaction : Transaction)
    (side : RtSide) (inputBase : ℕ) (state : BinaryMarketState) (live : BinaryMarketLiveOutputs)
    (action : BinaryMarketCoordinatorAction) (after : BinaryMarketState)
    (found : List BinaryMarketContinuation) : Prop :=
  Siblings live state ∧ ∃ places, MarketTransition crypto params transaction side inputBase state
    action after places ∧ ContinuesAt crypto transaction found places

/-- Whatever passes the stages of a path makes a transition. -/
def PathSound (crypto : MarketCrypto) (compiled : CompiledBinaryMarket)
    (economics : BinaryMarketEconomics) (transaction : Transaction) (side : RtSide)
    (inputBase : ℕ) (state : BinaryMarketState) (live : BinaryMarketLiveOutputs)
    (path : BinaryMarketPath) (action : BinaryMarketCoordinatorAction) : Prop :=
  ∀ {details decoded applied found}, Stages crypto compiled economics state live
      (sidesOf side state) transaction path inputBase action details decoded applied found →
    Transits crypto compiled.params transaction side inputBase state live action
      applied.newState found

include hsides hnew

include hfull hlayout in
theorem reported_of_stages
    (hresult : interpretAction crypto compiled state live transaction inputBase
      action = .ok result)
    (hsound : PathSound crypto compiled economics transaction side inputBase state live path
      action) :
    Reported crypto compiled.params transaction side inputBase state live action result := by
  have hstages := (interpretAction_eq_ok hsides hnew).mp hresult
  obtain ⟨full', layout, details, hfull', hlayout', hdetails, hdecoded⟩ := hstages
  cases hfull.symm.trans hfull'
  cases hlayout.symm.trans hlayout'
  have hparts := (interpretDecodedAction_eq_ok rfl).mp hdecoded
  obtain ⟨hgroup, hchecks, decoded, applied, found, haction, happly, houtputs, rfl⟩ := hparts
  have hstep := hsound ⟨hdetails, hgroup, hchecks, haction, happly, houtputs⟩
  exact ⟨hgroup, hstep.1, rfl, hstep.2⟩

theorem interpretAction_refused
    (hrefused : ∀ full layout, BinaryMarketLayout.forOperation
      (BinaryMarketCoordinatorRole.forState state) action.operation full ≠ .ok layout) :
    interpretAction crypto compiled state live transaction inputBase action ≠ .ok result := by
  intro hresult
  have hstages := (interpretAction_eq_ok hsides hnew).mp hresult
  obtain ⟨full, layout, -, -, hfound, -⟩ := hstages
  exact hrefused full layout hfound

include hfull hlayout in
theorem interpretAction_of_stages {details : Bool × ℕ} {decoded : BinaryMarketAction}
    {found : List BinaryMarketContinuation}
    (hstages : Stages crypto compiled economics state live (sidesOf side state) transaction
      path inputBase action details decoded applied found) :
    ∃ result, interpretAction crypto compiled state live transaction inputBase
        action = .ok result ∧ result.after = applied.newState ∧ result.continuations = found := by
  have hdecoded := (interpretDecodedAction_eq_ok rfl).mpr
    ⟨hstages.group, hstages.checks, decoded, applied, found, hstages.decodes,
      hstages.applies, hstages.outputs, rfl⟩
  exact ⟨_, (interpretAction_eq_ok hsides hnew).mpr
    ⟨full, _, details, hfull, hlayout, hstages.reads, hdecoded⟩, rfl, rfl⟩

end

/-! ## Soundness -/

section

variable {yes no collateral : TrackedContractOutput} {n base : ℕ}
  {economics : BinaryMarketEconomics} {details : Bool × ℕ}
  {decoded : BinaryMarketAction} {applied : AppliedBinaryMarketTransition}
  {found : List BinaryMarketContinuation} {path : BinaryMarketPath}
  (hnew : BinaryMarketEconomics.new compiled.params.basePayout = .ok economics)
  (hbound : (n + 1) * (2 * compiled.params.basePayout) < 2 ^ 64)

include hnew in
theorem pathSound_issue_dormant :
    PathSound crypto compiled economics transaction side inputBase (.trading 0)
      ⟨some yes, some no, none⟩ .initialIssuance (.issue base) := by
  intro details decoded applied found hstages
  have hpair := (economics_new_eq_ok hnew).2
  have hchecks := hstages.group.verifyGroup_dormant.mp hstages.checks
  obtain ⟨pairs, hpairs, -, hyes, hno, rfl⟩ := issuedPairs_eq_ok.mp hstages.decodes
  obtain ⟨-, hbound, rfl⟩ := apply_issue_eq_ok.mp hstages.applies
  rw [hpair] at hbound
  obtain ⟨-, hwindow, htokens, hlocked, hfound⟩ :=
    (verifyOutputs_issue (.inl rfl) hnew rfl).mp hstages.outputs
  exact ⟨hchecks.1, _, .issue hpairs hbound hyes hno (fun hne => absurd rfl hne)
    hwindow htokens hlocked, hfound⟩

include hnew in
theorem pathSound_issue_trading :
    PathSound crypto compiled economics transaction side inputBase (.trading (n + 1))
      ⟨some yes, some no, some collateral⟩ .subsequentIssuance (.issue base) := by
  intro details decoded applied found hstages
  have hpair := (economics_new_eq_ok hnew).2
  have hchecks := hstages.group.verifyGroup_unresolved.mp hstages.checks
  obtain ⟨pairs, hpairs, -, hyes, hno, rfl⟩ := issuedPairs_eq_ok.mp hstages.decodes
  obtain ⟨-, hbound, rfl⟩ := apply_issue_eq_ok.mp hstages.applies
  rw [hpair] at hbound
  obtain ⟨-, hwindow, htokens, hlocked, hfound⟩ :=
    (verifyOutputs_issue (.inr rfl) hnew rfl).mp hstages.outputs
  exact ⟨hchecks.1, _, .issue hpairs hbound hyes hno (fun _ => hchecks.2.1)
    hwindow htokens hlocked, hfound⟩

include hnew hbound in
theorem pathSound_cancelPart :
    PathSound crypto compiled economics transaction side inputBase (.trading (n + 1))
      ⟨some yes, some no, some collateral⟩ .partialCancellation (.cancel base) := by
  intro details decoded applied found hstages
  have hpair := (economics_new_eq_ok hnew).2
  have hchecks := hstages.group.verifyGroup_unresolved.mp hstages.checks
  have hquiet := hchecks.2.2 (by decide)
  obtain ⟨pairs, hpairs, hwindow, hyes, hno, rfl⟩ := burnedPairs_eq_ok.mp hstages.decodes
  rw [← hpair] at hbound
  obtain ⟨-, left, hleft, rfl⟩ := (apply_cancel_eq_ok hbound).mp hstages.applies
  obtain ⟨hne, -, -, htokens, hlocked, hfound⟩ :=
    (verifyOutputs_partialCancellation hnew rfl).mp hstages.outputs
  rw [hleft]
  exact ⟨hleft ▸ hchecks.1, _, .cancelPart hpairs hne hquiet hwindow htokens
    hlocked hyes hno, hfound⟩

include hnew hbound in
theorem pathSound_cancelAll :
    PathSound crypto compiled economics transaction side inputBase (.trading (n + 1))
      ⟨some yes, some no, some collateral⟩ .fullCancellation (.cancel base) := by
  intro details decoded applied found hstages
  have hpair := (economics_new_eq_ok hnew).2
  have hchecks := hstages.group.verifyGroup_unresolved.mp hstages.checks
  have hquiet := hchecks.2.2 (by decide)
  obtain ⟨pairs, hpairs, hwindow, hyes, hno, rfl⟩ := burnedPairs_eq_ok.mp hstages.decodes
  rw [← hpair] at hbound
  obtain ⟨-, left, hleft, rfl⟩ := (apply_cancel_eq_ok hbound).mp hstages.applies
  obtain ⟨hzero, htokens, hfound⟩ := verifyOutputs_fullCancellation.mp hstages.outputs
  cases hzero
  rw [Nat.zero_add] at hleft
  rw [hleft]
  exact ⟨hleft ▸ hchecks.1, _, .cancelAll hpairs hquiet hwindow htokens hyes hno, hfound⟩

theorem Stages.signed {live : BinaryMarketLiveOutputs} (hvalid : compiled.Valid crypto)
    (hstages : Stages crypto compiled economics state live sides transaction
      path inputBase (.resolve base resolution) details decoded applied found) :
    OracleSigned crypto compiled.params (decide (resolution.outcome = .yes))
        resolution.signature ∧ details = (decide (resolution.outcome = .yes), 0) := by
  have hreads := hstages.reads
  simp only [actionDetails, bind_eq_ok, require_eq_ok, pure_eq_ok] at hreads
  obtain ⟨-, hsigned, rfl⟩ := hreads
  exact ⟨(verifyOracleSignature_iff hvalid.key).mp hsigned, rfl⟩

theorem reported_outcome (outcome : BinaryOutcome) :
    (if decide (outcome = .yes) = true then BinaryOutcome.yes else .no) =
      outcome := by
  cases outcome <;> rfl

theorem pathSound_resolve_dormant (hvalid : compiled.Valid crypto) :
    PathSound crypto compiled economics transaction side inputBase (.trading 0)
      ⟨some yes, some no, none⟩ .dormantResolution (.resolve base resolution) := by
  intro details decoded applied found hstages
  have hchecks := hstages.group.verifyGroup_dormant.mp hstages.checks
  have hquiet := hchecks.2 (by decide)
  obtain ⟨hsigned, rfl⟩ := hstages.signed hvalid
  have hdecoded := hstages.decodes
  simp only [decodedAction, reported_outcome, pure_eq_ok] at hdecoded
  subst hdecoded
  cases (apply_resolve_eq_ok (by simp)).mp hstages.applies
  obtain ⟨hburned, rfl⟩ := (verifyOutputs_dormantClosing (.inl rfl)).mp hstages.outputs
  have hstep := MarketTransition.resolveDormant hquiet hsigned hburned
  rw [Nat.zero_mul]
  exact ⟨hchecks.1, _, hstep, continuesAt_nil.mpr rfl⟩

include hnew hbound in
theorem pathSound_resolve_trading (hvalid : compiled.Valid crypto) :
    PathSound crypto compiled economics transaction side inputBase (.trading (n + 1))
      ⟨some yes, some no, some collateral⟩ .activeResolution (.resolve base resolution) := by
  intro details decoded applied found hstages
  have hpair := (economics_new_eq_ok hnew).2
  have hchecks := hstages.group.verifyGroup_unresolved.mp hstages.checks
  have hquiet := hchecks.2.2 (by decide)
  obtain ⟨hsigned, rfl⟩ := hstages.signed hvalid
  have hdecoded := hstages.decodes
  simp only [decodedAction, reported_outcome, pure_eq_ok] at hdecoded
  subst hdecoded
  rw [← hpair] at hbound
  cases (apply_resolve_eq_ok hbound).mp hstages.applies
  obtain ⟨hwindow, hburned, hlocked, hfound⟩ :=
    (verifyOutputs_activeResolution rfl).mp hstages.outputs
  rw [hpair] at hlocked ⊢
  exact ⟨hchecks.1, _, .resolve (by simp) hquiet hsigned hwindow hburned hlocked, hfound⟩

theorem Stages.expiry {live : BinaryMarketLiveOutputs}
    (hpath : path = .activeExpiry ∨ path = .dormantExpiry)
    (hstages : Stages crypto compiled economics state live sides transaction
      path inputBase (.expire base) details decoded applied found) :
    ExpiryLocked compiled.params transaction ∧ decoded = .expire := by
  have hdecoded := hstages.decodes
  rcases hpath with rfl | rfl <;>
  · simp only [decodedAction, bind_eq_ok, pure_eq_ok, checkExpiryLock_eq_ok] at hdecoded
    obtain ⟨-, hlocked, rfl⟩ := hdecoded
    exact ⟨hlocked, rfl⟩

theorem pathSound_expire_dormant :
    PathSound crypto compiled economics transaction side inputBase (.trading 0)
      ⟨some yes, some no, none⟩ .dormantExpiry (.expire base) := by
  intro details decoded applied found hstages
  have hchecks := hstages.group.verifyGroup_dormant.mp hstages.checks
  have hquiet := hchecks.2 (by decide)
  obtain ⟨hexpired, rfl⟩ := hstages.expiry (.inr rfl)
  cases (apply_expire_eq_ok (by simp)).mp hstages.applies
  obtain ⟨hburned, rfl⟩ := (verifyOutputs_dormantClosing (.inr rfl)).mp hstages.outputs
  have hstep := MarketTransition.expireDormant hquiet hexpired hburned
  rw [Nat.zero_mul]
  exact ⟨hchecks.1, _, hstep, continuesAt_nil.mpr rfl⟩

include hnew hbound in
theorem pathSound_expire_trading :
    PathSound crypto compiled economics transaction side inputBase (.trading (n + 1))
      ⟨some yes, some no, some collateral⟩ .activeExpiry (.expire base) := by
  intro details decoded applied found hstages
  have hpair := (economics_new_eq_ok hnew).2
  have hchecks := hstages.group.verifyGroup_unresolved.mp hstages.checks
  have hquiet := hchecks.2.2 (by decide)
  obtain ⟨hexpired, rfl⟩ := hstages.expiry (.inl rfl)
  rw [← hpair] at hbound
  cases (apply_expire_eq_ok hbound).mp hstages.applies
  obtain ⟨hwindow, hburned, hlocked, hfound⟩ := (verifyOutputs_activeExpiry rfl).mp hstages.outputs
  rw [hpair] at hlocked ⊢
  exact ⟨hchecks.1, _, .expire (by simp) hquiet hexpired hwindow hburned hlocked, hfound⟩

include hnew in
theorem pathSound_redeem {yes : Bool} (hvalid : compiled.Valid crypto)
    (hstate : Redeemable compiled.params.basePayout state yes unit amount slot next)
    (hwhole : amount % unit = 0) :
    PathSound crypto compiled economics transaction side inputBase state
      ⟨none, none, some collateral⟩ (redemptionPath state) (.redeem base) := by
  intro details decoded applied found hstages
  rw [hstate.sidesOf] at hstages
  refine ⟨hstate.siblings, ?_⟩
  have hbase := (economics_new_eq_ok hnew).1
  obtain ⟨yes', tokens⟩ := details
  have hdetails := (redemptionDetails_eq_ok hvalid.tokens_ne).mp hstages.reads
  obtain ⟨hpays, index, -, htokens, -⟩ := hdetails
  have hside := hstate.of_pays hpays
  have hquiet := (hstages.group.verifyGroup_settled hside).mp hstages.checks
  cases hside.decodedAction.symm.trans hstages.decodes
  obtain ⟨-, hbound, remaining, hpaid, rfl⟩ :=
    (apply_redeem_eq_ok (hbase ▸ hside) hwhole).mp hstages.applies
  have houtputs := hstages.outputs
  rw [hside.verifyOutputs] at houtputs
  by_cases hleft : remaining = 0
  · subst hleft
    obtain ⟨-, hburned, rfl⟩ := (verifyRedemption_all hside).mp houtputs
    exact ⟨[], .redeemAll hside htokens (by omega) hbound hquiet hburned, continuesAt_nil.mpr rfl⟩
  · obtain ⟨-, hwindow, hlocked, hburned, hfound⟩ := (verifyRedemption_part hside hleft).mp houtputs
    exact ⟨_, .redeemPart hside htokens hleft hpaid hbound hquiet hwindow hlocked hburned, hfound⟩

end

section

variable {live : BinaryMarketLiveOutputs} {action : BinaryMarketCoordinatorAction}

theorem dormant_layout_refused {operation : BinaryMarketOperation}
    (hoperation : operation = .cancel ∨ operation = .redeem)
    (full : Option Bool) (layout : BinaryMarketLayout) :
    BinaryMarketLayout.forOperation .dormantYesRt operation full ≠ .ok layout := by
  intro hlayout
  rcases hoperation with rfl | rfl <;> rcases full with _ | _ | _ <;> cases hlayout

theorem trading_redeem_refused (full : Option Bool) (layout : BinaryMarketLayout) :
    BinaryMarketLayout.forOperation .unresolvedYesRt .redeem full ≠ .ok layout := by
  intro hlayout
  rcases full with _ | _ | _ <;> cases hlayout

include hstate in
theorem Redeemable.layout_refused {operation : BinaryMarketOperation}
    (hoperation : operation ≠ .redeem) (full : Option Bool) (layout : BinaryMarketLayout) :
    BinaryMarketLayout.forOperation (BinaryMarketCoordinatorRole.forState state)
      operation full ≠ .ok layout := by
  intro hlayout
  cases hstate <;> cases operation <;> rcases full with _ | _ | _ <;>
    first | exact absurd rfl hoperation | cases hlayout

include hstate in
theorem Redeemable.coordinatorSlot : (BinaryMarketCoordinatorRole.forState state).slot = slot := by
  cases hstate <;> rfl

theorem reported_of_interpretAction (hvalid : compiled.Valid crypto)
    (hholds : HoldsOutputs crypto compiled.params side state live)
    (hresult : interpretAction crypto compiled state live transaction inputBase
      action = .ok result) :
    Reported crypto compiled.params transaction side inputBase state live action
      result := by
  obtain ⟨economics, hnew⟩ := hvalid.economics
  have hsides := hholds.inferLiveRtSides
  cases hholds with
  | dormant hyes hno =>
    cases action with
    | issue base =>
      exact reported_of_stages hsides hnew rfl rfl hresult (pathSound_issue_dormant hnew)
    | cancel base =>
      have hlayout := fun full layout => dormant_layout_refused (.inl rfl) full layout
      exact absurd hresult (interpretAction_refused hsides hnew hlayout)
    | resolve base resolution =>
      exact reported_of_stages hsides hnew rfl rfl hresult (pathSound_resolve_dormant hvalid)
    | expire base =>
      exact reported_of_stages hsides hnew rfl rfl hresult pathSound_expire_dormant
    | redeem base =>
      have hlayout := fun full layout => dormant_layout_refused (.inr rfl) full layout
      exact absurd hresult (interpretAction_refused hsides hnew hlayout)
  | trading hbound hyes hno hcollateral =>
    cases action with
    | issue base =>
      exact reported_of_stages hsides hnew rfl rfl hresult (pathSound_issue_trading hnew)
    | cancel base =>
      have hshape := (interpretAction_eq_ok hsides hnew).mp hresult
      obtain ⟨full, -, -, hfull, -⟩ := hshape
      obtain ⟨shape, -, rfl⟩ := map_eq_ok.mp hfull
      cases shape with
      | false =>
        exact reported_of_stages hsides hnew hfull rfl hresult
          (pathSound_cancelPart hnew hbound)
      | true =>
        exact reported_of_stages hsides hnew hfull rfl hresult
          (pathSound_cancelAll hnew hbound)
    | resolve base resolution =>
      exact reported_of_stages hsides hnew rfl rfl hresult
        (pathSound_resolve_trading hnew hbound hvalid)
    | expire base =>
      exact reported_of_stages hsides hnew rfl rfl hresult
        (pathSound_expire_trading hnew hbound)
    | redeem base =>
      exact absurd hresult (interpretAction_refused hsides hnew trading_redeem_refused)
  | settled hstate hwhole hcollateral =>
    by_cases haction : action.operation = .redeem
    · cases action with
      | redeem base =>
        have hfull : fullCancellation compiled.params transaction (.redeem base) = .ok none := rfl
        exact reported_of_stages hsides hnew hfull hstate.forOperation hresult
          (pathSound_redeem hnew hvalid hstate hwhole)
      | issue | cancel | resolve | expire => cases haction
    · exact absurd hresult (interpretAction_refused hsides hnew (hstate.layout_refused haction))

/-! ## Completeness -/

theorem MarketTransition.exists_continuesAt
    {after : BinaryMarketState} {places : List (ℕ × BinaryMarketSlot)}
    (hstep : MarketTransition crypto params transaction side inputBase state action after places) :
    ∃ found, ContinuesAt crypto transaction found places := by
  have hrt : ∀ {index script leg side'}, RtAt crypto params transaction index script leg side' →
        ∃ txout, transaction.output[index]? = some txout :=
    fun ⟨txout, hat, _⟩ => ⟨txout, hat⟩
  have hexplicit : ∀ {index script asset amount}, ExplicitAt transaction index script asset amount →
        ∃ txout, transaction.output[index]? = some txout :=
    fun ⟨txout, hat, _⟩ => ⟨txout, hat⟩
  have hplaces : ∀ place ∈ places, ∃ txout, transaction.output[place.1]? = some txout := by
    cases hstep with
    | issue _ _ _ _ _ _ htokens hlocked | cancelPart _ _ _ _ htokens hlocked =>
      simp only [List.forall_mem_cons]
      exact ⟨hrt htokens.2.1, hrt htokens.2.2, hexplicit hlocked, by simp⟩
    | cancelAll _ _ _ htokens =>
      simp only [List.forall_mem_cons]
      exact ⟨hrt htokens.2.1, hrt htokens.2.2, by simp⟩
    | resolve _ _ _ _ _ hlocked | expire _ _ _ _ _ hlocked | redeemPart _ _ _ _ _ _ _ hlocked =>
      simpa using hexplicit hlocked
    | resolveDormant | expireDormant | redeemAll => simp
  clear hstep
  induction places with
  | nil => exact ⟨[], continuesAt_nil.mpr rfl⟩
  | cons place places ih =>
    obtain ⟨txout, hat⟩ := hplaces place (by simp)
    obtain ⟨rest, hrest⟩ := ih fun place hmem => hplaces place (by simp [hmem])
    exact ⟨_, continuesAt_cons.mpr ⟨txout, rest, hat, hrest, rfl⟩⟩

section

variable {yes no : TrackedContractOutput} {collateral : TrackedContractOutput}
  {economics : BinaryMarketEconomics} {n pairs base : ℕ} {found : List BinaryMarketContinuation}
  {path : BinaryMarketPath}

theorem fullCancellation_part {script : Script} (hwindow : base + 2 < 2 ^ 32)
    (hlocked : ExplicitAt transaction (base + 2) script compiled.params.collateralAssetId amount) :
    fullCancellation compiled.params transaction (.cancel base) = .ok (some false) := by
  obtain ⟨txout, hat, -, hvalue⟩ := hlocked
  have hshape := cancellationIsFull_eq_ok.mpr
    ⟨hwindow, txout, _, _, hat, hvalue, by rw [if_pos rfl]⟩
  simp only [fullCancellation, hshape]
  rfl

theorem fullCancellation_all (hvalid : compiled.Valid crypto)
    (hwindow : base + 2 < 2 ^ 32) (hpairs : pairs ≠ 0)
    (hburn : ExplicitAt transaction (base + 2) burnScript compiled.params.yesTokenAssetId pairs) :
    fullCancellation compiled.params transaction (.cancel base) = .ok (some true) := by
  have hother : compiled.params.yesTokenAssetId ≠
    compiled.params.collateralAssetId := hvalid.token_ne_collateral true
  have hburned := hburn
  obtain ⟨txout, hat, -, hvalue⟩ := hburn
  have hshape := cancellationIsFull_eq_ok.mpr ⟨hwindow, txout, _, _, hat, hvalue,
    by rw [if_neg hother]; exact ⟨rfl, pairs, hpairs, hburned⟩⟩
  simp only [fullCancellation, hshape]
  rfl

theorem actionDetails_resolve (hvalid : compiled.Valid crypto)
    (hsigned : OracleSigned crypto compiled.params
      (decide (resolution.outcome = .yes)) resolution.signature) :
    actionDetails crypto compiled.params state transaction
        (.resolve base resolution) = .ok (decide (resolution.outcome = .yes), 0) := by
  have haccepted := (verifyOracleSignature_iff hvalid.key).mpr hsigned
  simp only [actionDetails, bind_eq_ok, require_eq_ok, pure_eq_ok]
  exact ⟨(), haccepted, trivial⟩

theorem decodedAction_resolve {outcome : BinaryOutcome} {tokens : ℕ}
    (hpath : path = .activeResolution ∨ path = .dormantResolution) :
    decodedAction crypto compiled.params state sides transaction path inputBase
        base (decide (outcome = .yes)) tokens = .ok (.resolve outcome) := by
  rcases hpath with rfl | rfl <;> simp only [decodedAction, reported_outcome, pure_eq_ok]

theorem decodedAction_expire {outcomeYes : Bool} {tokens : ℕ}
    (hpath : path = .activeExpiry ∨ path = .dormantExpiry)
    (hexpired : ExpiryLocked compiled.params transaction) :
    decodedAction crypto compiled.params state sides transaction path inputBase
        base outcomeYes tokens = .ok .expire := by
  rcases hpath with rfl | rfl <;>
  · simp only [decodedAction, bind_eq_ok, pure_eq_ok, checkExpiryLock_eq_ok]
    exact ⟨(), hexpired, trivial⟩

theorem stages_issue {locked : Option TrackedContractOutput}
    (hpath : path = .initialIssuance ∨ path = .subsequentIssuance)
    (hnew : BinaryMarketEconomics.new compiled.params.basePayout = .ok economics)
    (hgroup : SpendsGroup ⟨some yes, some no, locked⟩ transaction inputBase (.trading n))
    (hchecks : verifyGroup ⟨path, BinaryMarketCoordinatorRole.forState
      (.trading n)⟩ (.trading n) ⟨some yes, some no, locked⟩ transaction
      inputBase = .ok ())
    (hpairs : pairs ≠ 0) (hbound : (n + pairs) * (2 * compiled.params.basePayout) < 2 ^ 64)
    (hyes : ReissuedAt crypto compiled.params transaction inputBase
      compiled.params.yesTokenAssetId .yes side pairs)
    (hno : ReissuedAt crypto compiled.params transaction (inputBase + 1)
      compiled.params.noTokenAssetId .no side pairs)
    (hfound : TradesAt crypto compiled.params transaction base
      ((n + pairs) * (2 * compiled.params.basePayout)) side.flip found) :
    Stages crypto compiled economics (.trading n) ⟨some yes, some no, locked⟩
      ⟨some side, some side⟩ transaction path inputBase (.issue base) (false, 0)
      (.issue pairs) ⟨.trading n, .trading (n + pairs),
        .issued pairs (pairs * economics.collateralPerPair)⟩ found := by
  have hpair := (economics_new_eq_ok hnew).2
  have hsecond : inputBase + 1 < 2 ^ 32 := by
    cases n with
    | zero | succ =>
      obtain ⟨-, -, -, hlt, -⟩ := hgroup.input (i := 1) rfl
      exact hlt
  have hissued := issuedPairs_eq_ok.mpr ⟨pairs, hpairs, hsecond, hyes, hno, rfl⟩
  constructor
  · rfl
  · exact hgroup
  · exact hchecks
  · rcases hpath with rfl | rfl <;> exact hissued
  · exact apply_issue_eq_ok.mpr ⟨hpairs, hpair ▸ hbound, rfl⟩
  · exact (verifyOutputs_issue hpath hnew rfl).mpr ⟨hbound, hfound⟩

end

theorem HoldsOutputs.of_redeemable (hholds : HoldsOutputs crypto params side state live)
    (hstate : Redeemable params.basePayout state yes unit amount slot next) :
    amount % unit = 0 ∧ ∃ collateral, live = ⟨none, none, some collateral⟩ := by
  cases hholds with
  | dormant | trading => cases hstate
  | settled hsettled hwhole =>
    cases hstate <;> cases hsettled <;> exact ⟨hwhole, _, rfl⟩

theorem interpretAction_of_transition {after : BinaryMarketState}
    {places : List (ℕ × BinaryMarketSlot)} (hvalid : compiled.Valid crypto)
    (hholds : HoldsOutputs crypto compiled.params side state live)
    (hgroup : SpendsGroup live transaction inputBase state) (hsiblings : Siblings live state)
    (hstep : MarketTransition crypto compiled.params transaction side inputBase
      state action after places) :
    ∃ result, interpretAction crypto compiled state live transaction inputBase
        action = .ok result ∧ result.after = after ∧
      ContinuesAt crypto transaction result.continuations places := by
  obtain ⟨economics, hnew⟩ := hvalid.economics
  obtain ⟨hbase, hpair⟩ := economics_new_eq_ok hnew
  have hsides := hholds.inferLiveRtSides
  obtain ⟨found, hfound⟩ := hstep.exists_continuesAt
  have hreport : ∀ {full path details decoded applied},
      fullCancellation compiled.params transaction action = .ok full →
      BinaryMarketLayout.forOperation
        (BinaryMarketCoordinatorRole.forState state) action.operation full =
          .ok ⟨path, BinaryMarketCoordinatorRole.forState state⟩ →
      Stages crypto compiled economics state live (sidesOf side state)
        transaction path inputBase action details decoded applied found →
      applied.newState = after →
      ∃ result, interpretAction crypto compiled state live transaction inputBase
          action = .ok result ∧ result.after = after ∧
        ContinuesAt crypto transaction result.continuations places := by
    intro full path details decoded applied hfull hlayout hstages hafter
    obtain ⟨result, hresult, hstate, hcontinues⟩ :=
      interpretAction_of_stages hsides hnew hfull hlayout hstages
    exact ⟨result, hresult, hstate.trans hafter, hcontinues ▸ hfound⟩
  cases hstep with
  | issue hpairs hbound hyes hno hquiet hwindow htokens hlocked =>
    cases hholds with
    | dormant =>
      have hchecks := hgroup.verifyGroup_dormant.mpr ⟨hsiblings, fun hne => absurd rfl hne⟩
      exact hreport rfl rfl (stages_issue (.inl rfl) hnew hgroup hchecks
        hpairs hbound hyes hno ⟨hwindow, htokens, hlocked, hfound⟩) rfl
    | trading =>
      have hchecks := hgroup.verifyGroup_unresolved.mpr
        ⟨hsiblings, hquiet (by simp), fun hne => absurd rfl hne⟩
      exact hreport rfl rfl (stages_issue (.inr rfl) hnew hgroup hchecks
        hpairs hbound hyes hno ⟨hwindow, htokens, hlocked, hfound⟩) rfl
    | settled hstate => cases hstate
  | @cancelPart n pairs base hpairs hleft hquiet hwindow htokens hlocked hyes hno =>
    generalize htotal : n + pairs = total at *
    cases hholds with
    | dormant => omega
    | @trading m _ _ _ hbound =>
      have hthird : base + 2 < 2 ^ 32 := by omega
      have hfull := fullCancellation_part hthird hlocked
      have hless : n * (2 * compiled.params.basePayout) < 2 ^ 64 :=
        lt_of_le_of_lt (Nat.mul_le_mul_right _ (by omega)) hbound
      exact hreport hfull rfl ⟨rfl, hgroup, hgroup.verifyGroup_unresolved.mpr
            ⟨hsiblings, hquiet 2 (by simp), fun _ => hquiet⟩,
          burnedPairs_eq_ok.mpr ⟨pairs, hpairs, hwindow, hyes, hno, rfl⟩,
          (apply_cancel_eq_ok (hpair ▸ hbound)).mpr ⟨hpairs, n, htotal.symm, rfl⟩,
          (verifyOutputs_partialCancellation hnew rfl).mpr
            ⟨hleft, hless, hthird, htokens, hlocked, hfound⟩⟩ rfl
    | settled hstate => cases hstate
  | @cancelAll pairs base hpairs hquiet hwindow htokens hyes hno =>
    cases hholds with
    | dormant => exact absurd rfl hpairs
    | @trading m _ _ _ hbound =>
      have hfull := fullCancellation_all hvalid (by omega) hpairs hyes
      exact hreport hfull rfl ⟨rfl, hgroup, hgroup.verifyGroup_unresolved.mpr
            ⟨hsiblings, hquiet 2 (by simp), fun _ => hquiet⟩,
          burnedPairs_eq_ok.mpr ⟨_, hpairs, hwindow, hyes, hno, rfl⟩,
          (apply_cancel_eq_ok (hpair ▸ hbound)).mpr ⟨hpairs, 0, (Nat.zero_add _).symm, rfl⟩,
          verifyOutputs_fullCancellation.mpr ⟨rfl, htokens, hfound⟩⟩ rfl
    | settled hstate => cases hstate
  | @resolve n base resolution hn hquiet hsigned hwindow hburned hlocked =>
    cases hholds with
    | dormant => exact absurd rfl hn
    | trading hbound =>
      rw [← hpair] at hbound hlocked
      exact hreport rfl rfl ⟨actionDetails_resolve hvalid hsigned, hgroup,
          hgroup.verifyGroup_unresolved.mpr ⟨hsiblings, hquiet 2 (by simp), fun _ => hquiet⟩,
          decodedAction_resolve (.inl rfl),
          (apply_resolve_eq_ok hbound).mpr rfl,
          (verifyOutputs_activeResolution rfl).mpr
            ⟨hwindow, hburned, hlocked, hfound⟩⟩ (by rw [hpair])
    | settled hstate => cases hstate
  | @resolveDormant base resolution hquiet hsigned hburned =>
    cases hholds with
    | dormant =>
      exact hreport rfl rfl ⟨actionDetails_resolve hvalid hsigned, hgroup,
          hgroup.verifyGroup_dormant.mpr ⟨hsiblings, fun _ => hquiet⟩,
          decodedAction_resolve (.inr rfl),
          (apply_resolve_eq_ok (by simp)).mpr rfl,
          (verifyOutputs_dormantClosing (.inl rfl)).mpr
            ⟨hburned, continuesAt_nil.mp hfound⟩⟩ (by rw [Nat.zero_mul])
    | settled hstate => cases hstate
  | @expire n base hn hquiet hexpired hwindow hburned hlocked =>
    cases hholds with
    | dormant => exact absurd rfl hn
    | trading hbound =>
      rw [← hpair] at hbound hlocked
      exact hreport rfl rfl ⟨rfl, hgroup, hgroup.verifyGroup_unresolved.mpr
            ⟨hsiblings, hquiet 2 (by simp), fun _ => hquiet⟩,
          decodedAction_expire (.inl rfl) hexpired,
          (apply_expire_eq_ok hbound).mpr rfl,
          (verifyOutputs_activeExpiry rfl).mpr ⟨hwindow, hburned, hlocked, hfound⟩⟩ (by rw [hpair])
    | settled hstate => cases hstate
  | @expireDormant base hquiet hexpired hburned =>
    cases hholds with
    | dormant =>
      exact hreport rfl rfl ⟨rfl, hgroup,
          hgroup.verifyGroup_dormant.mpr ⟨hsiblings, fun _ => hquiet⟩,
          decodedAction_expire (.inr rfl) hexpired,
          (apply_expire_eq_ok (by simp)).mpr rfl,
          (verifyOutputs_dormantClosing (.inr rfl)).mpr
            ⟨hburned, continuesAt_nil.mp hfound⟩⟩ (by rw [Nat.zero_mul])
    | settled hstate => cases hstate
  | @redeemPart _ side' unit amount remaining tokens base slot next hstate
      htokens hleft hpaid hbound hquiet hwindow hlocked hburned =>
      obtain ⟨hwhole, collateral, rfl⟩ := hholds.of_redeemable hstate
      rw [hstate.sidesOf] at hreport
      have hindex : BurnIndex compiled.params transaction base (base + 1) := by
        obtain ⟨txout, hat, -, hvalue⟩ := hlocked
        exact ⟨txout, _, _, hat, hvalue, by simpa using hwindow⟩
      have hdetails := (redemptionDetails_eq_ok hvalid.tokens_ne).mpr
        ⟨hstate.pays, _, hindex, htokens, hburned⟩
      exact hreport rfl hstate.forOperation
        ⟨hdetails, hgroup, (hgroup.verifyGroup_settled hstate).mpr hquiet, hstate.decodedAction,
          (apply_redeem_eq_ok (hbase ▸ hstate) hwhole).mpr ⟨htokens, hbound, remaining, hpaid, rfl⟩,
          hstate.verifyOutputs.trans ((verifyRedemption_part hstate hleft).mpr
            ⟨htokens, hwindow, hlocked, hburned, hfound⟩)⟩ rfl
  | @redeemAll _ side' unit amount tokens base slot next hstate htokens hpaid
      hbound hquiet hburned =>
      obtain ⟨hwhole, collateral, rfl⟩ := hholds.of_redeemable hstate
      rw [hstate.sidesOf] at hreport
      have hother := hvalid.token_ne_collateral side'
      have hindex : BurnIndex compiled.params transaction base base := by
        obtain ⟨txout, hat, -, hvalue⟩ := hburned
        exact ⟨txout, _, _, hat, hvalue, by rw [if_neg hother]⟩
      have hdetails := (redemptionDetails_eq_ok hvalid.tokens_ne).mpr
        ⟨hstate.pays, _, hindex, htokens, hburned⟩
      exact hreport rfl hstate.forOperation
        ⟨hdetails, hgroup, (hgroup.verifyGroup_settled hstate).mpr hquiet, hstate.decodedAction,
          (apply_redeem_eq_ok (hbase ▸ hstate) hwhole).mpr ⟨htokens, hbound, 0, hpaid, rfl⟩,
          hstate.verifyOutputs.trans ((verifyRedemption_all hstate).mpr
            ⟨htokens, hburned, continuesAt_nil.mp hfound⟩)⟩ rfl

end

end DeadcatNode
