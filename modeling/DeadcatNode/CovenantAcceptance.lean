import DeadcatNode.CovenantAgreement

/-!
# What the covenant accepts

The inputs of a market pass the covenant exactly when they make a transition of
the market, and therefore exactly when the interpreter reports one.
-/

namespace DeadcatNode

open Checked

variable {transaction : Transaction} {amount : ℕ}

namespace Covenant

variable {crypto : MarketCrypto} {compiled : CompiledBinaryMarket} {live : BinaryMarketLiveOutputs}
  {env : CovenantEnv} {side : RtSide} {state : BinaryMarketState} {inputBase : ℕ}
  {outputs : List SlotOutput} {action : BinaryMarketCoordinatorAction} {slot : BinaryMarketSlot}

/-! ## Input groups -/

theorem groupInput {params : BinaryMarketParams} {i : ℕ} {tracked : TrackedContractOutput}
    (hcontext : CovenantContext crypto params live env)
    (hgroup : SpendsGroup live env.transaction inputBase state)
    (hslot : (groupSlots state)[i]? = some slot) (htracked : live.forSlot slot = some tracked) :
    inputBase + i < 2 ^ 32 ∧ env.utxos[inputBase + i]? = some tracked.txout ∧
      inputPrevOutpoint env (inputBase + i) = some tracked.outpoint := by
  obtain ⟨tracked', input, hlive, hbound, hinput, hspends⟩ := hgroup.input hslot
  cases htracked.symm.trans hlive
  have hutxo := hcontext.spends _ _ _ _ hinput hlive hspends
  refine ⟨hbound, hutxo, ?_⟩
  rw [inputPrevOutpoint, hinput, Option.map_some, hspends]

theorem ensureInputScript_held {params : BinaryMarketParams} {index : ℕ}
    {tracked : TrackedContractOutput} (hcontext : CovenantContext crypto params live env)
    (slot : BinaryMarketSlot) (tag : ℕ) (htag : slot.tag = tag)
    (hscript : tracked.txout.scriptPubkey = crypto.slotScript params slot)
    (hutxo : env.utxos[index]? = some tracked.txout) :
    ensureInputScript crypto env index (env.scriptForSlot tag) = .ok () := by
  subst htag
  simp only [ensureInputScript, inputScriptHash, hutxo, Option.map_some,
    bind_eq_ok, unwrap_eq_ok, assertion_eq_ok, hcontext.slots, hscript]
  exact ⟨_, rfl, rfl⟩

theorem ensureSamePreviousTransaction2_eq_ok {first second : ℕ} {yes no : OutPoint} {u : Unit}
    (hyes : inputPrevOutpoint env first = some yes) (hno : inputPrevOutpoint env second = some no) :
    ensureSamePreviousTransaction2 env first second = .ok u ↔ yes.txid = no.txid := by
  simp only [ensureSamePreviousTransaction2, hyes, hno, unwrap, okOr, ok_bind, assertion_eq_ok]

theorem ensureSamePreviousTransaction3_eq_ok {first second third : ℕ}
    {yes no collateral : OutPoint} {u : Unit} (hyes : inputPrevOutpoint env first = some yes)
    (hno : inputPrevOutpoint env second = some no)
    (hcollateral : inputPrevOutpoint env third = some collateral) :
    ensureSamePreviousTransaction3 env first second third = .ok u ↔
      yes.vout + 2 < 2 ^ 32 ∧ no = ⟨yes.txid, yes.vout + 1⟩ ∧
        collateral = ⟨yes.txid, yes.vout + 2⟩ := by
  obtain ⟨yesTxid, yesVout⟩ := yes
  obtain ⟨noTxid, noVout⟩ := no
  obtain ⟨collateralTxid, collateralVout⟩ := collateral
  simp only [ensureSamePreviousTransaction3, hyes, hno, hcollateral, unwrap, okOr,
    ok_bind, assertion_bind, safeAdd32_bind, assertion_eq_ok, OutPoint.mk.injEq]
  constructor
  · rintro ⟨rfl, rfl, -, rfl, hbound, rfl⟩
    exact ⟨hbound, ⟨rfl, rfl⟩, rfl, rfl⟩
  · rintro ⟨hbound, ⟨rfl, rfl⟩, rfl, rfl⟩
    exact ⟨rfl, rfl, by omega, rfl, hbound, rfl⟩

/-! ## The coordinator -/

section

variable {yes no collateral : TrackedContractOutput} {n : ℕ}

section Dormant

variable (hcontext : CovenantContext crypto compiled.params ⟨some yes, some no, none⟩ env)
  (hyes : RtHeld crypto compiled.params .yes .dormantYesRt side yes)
  (hno : RtHeld crypto compiled.params .no .dormantNoRt side no)
  (hgroup : SpendsGroup ⟨some yes, some no, none⟩ env.transaction inputBase (.trading 0))

include hcontext hyes hno hgroup

theorem coordinator_dormant (hvalid : compiled.Valid crypto)
    (hkeyless : KeylessReissuance env.transaction) (hcurrent : env.currentIndex = inputBase) :
    coordinator crypto compiled env 0 action = .ok outputs ↔
      Binds crypto compiled.params env.transaction side inputBase (.trading 0) action outputs := by
  subst hcurrent
  obtain ⟨-, hyesUtxo, -⟩ := groupInput (i := 0) hcontext hgroup rfl rfl
  obtain ⟨hsecond, hnoUtxo, -⟩ := groupInput (i := 1) hcontext hgroup rfl rfl
  rw [Nat.add_zero] at hyesUtxo
  cases action with
  | issue base =>
    exact initialIssuance_eq_ok hvalid hcontext rfl hyes hno hyesUtxo hnoUtxo hsecond hkeyless
  | cancel base =>
    refine iff_of_false (by simp [coordinator, assertion, require]) ?_
    rintro ⟨after, places, hstep, -⟩
    generalize hstate : BinaryMarketState.trading 0 = state at hstep
    cases hstep with
    | cancelPart | cancelAll =>
      have hzero := BinaryMarketState.trading.inj hstate
      omega
  | resolve base resolution =>
    change dormantSettlement crypto compiled env env.currentIndex base
      (verifyOracle crypto compiled (decide (resolution.outcome = .yes))
        resolution.signature) = _ ↔ _
    rw [dormantSettlement_eq_ok hvalid hcontext rfl hyes hno hyesUtxo hnoUtxo
      hsecond fun _ => verifyOracle_eq_ok]
    constructor
    · rintro ⟨hquiet, hsigned, hburned, rfl⟩
      exact ⟨_, _, .resolveDormant hquiet hsigned hburned, rfl⟩
    · rintro ⟨after, places, hstep, rfl⟩
      generalize hstate : BinaryMarketState.trading 0 = state at hstep
      cases hstep with
      | resolve hn => exact absurd (BinaryMarketState.trading.inj hstate).symm hn
      | resolveDormant hquiet hsigned hburned =>
        exact ⟨hquiet, hsigned, hburned, rfl⟩
  | expire base =>
    change dormantSettlement crypto compiled env env.currentIndex base
      (checkLockHeight env compiled.params.expiryHeight) = _ ↔ _
    rw [dormantSettlement_eq_ok hvalid hcontext rfl hyes hno hyesUtxo hnoUtxo
      hsecond fun _ => checkLockHeight_eq_ok hvalid]
    constructor
    · rintro ⟨hquiet, hexpired, hburned, rfl⟩
      exact ⟨_, _, .expireDormant hquiet hexpired hburned, rfl⟩
    · rintro ⟨after, places, hstep, rfl⟩
      generalize hstate : BinaryMarketState.trading 0 = state at hstep
      cases hstep with
      | expire hn => exact absurd (BinaryMarketState.trading.inj hstate).symm hn
      | expireDormant hquiet hexpired hburned =>
        exact ⟨hquiet, hexpired, hburned, rfl⟩
  | redeem base =>
    refine iff_of_false (by simp [coordinator, assertion, require]) ?_
    rintro ⟨after, places, hstep, -⟩
    exact hstep.not_redeem_trading

theorem dormant_checks : inputBase + 1 < 2 ^ 32 ∧
    ensureInputScript crypto env inputBase (env.scriptForSlot 0) = .ok () ∧
    ensureInputScript crypto env (inputBase + 1) (env.scriptForSlot 1) = .ok () ∧
    ∀ u, ensureSamePreviousTransaction2 env inputBase (inputBase + 1) = .ok u ↔
      Siblings ⟨some yes, some no, none⟩ (.trading 0) := by
  obtain ⟨-, hyesUtxo, hyesPrev⟩ := groupInput (i := 0) hcontext hgroup rfl rfl
  obtain ⟨hsecond, hnoUtxo, hnoPrev⟩ := groupInput (i := 1) hcontext hgroup rfl rfl
  refine ⟨hsecond, ensureInputScript_held hcontext .dormantYesRt 0 rfl hyes.script hyesUtxo,
    ensureInputScript_held hcontext .dormantNoRt 1 rfl hno.script hnoUtxo, fun u => ?_⟩
  rw [siblings_dormant]
  exact ensureSamePreviousTransaction2_eq_ok hyesPrev hnoPrev

theorem main_dormant (hcurrent : env.currentIndex = inputBase) :
    main crypto compiled env 0 action = .ok outputs ↔
      Siblings ⟨some yes, some no, none⟩ (.trading 0) ∧
        coordinator crypto compiled env 0 action = .ok outputs := by
  obtain ⟨hsecond, hyesScript, hnoScript, hprevious⟩ := dormant_checks hcontext hyes hno hgroup
  have hchecks : ∀ u, coordinatorGroup crypto env 0 = .ok u ↔ _ := fun u => by
    simp only [coordinatorGroup, ensureDormantCoordinatorGroup, hcurrent, if_true,
      safeAdd32_bind, hnoScript, ok_bind, hprevious, hsecond, true_and]
    rfl
  simp only [main, hcurrent, hyesScript, ok_bind, zero_ne_one, OfNat.zero_ne_ofNat, if_false,
    check_bind hchecks]

theorem main_dormantFollower (hsiblings : Siblings ⟨some yes, some no, none⟩ (.trading 0))
    (hcurrent : env.currentIndex = inputBase + 1) : main crypto compiled env 1 action = .ok [] := by
  obtain ⟨-, hyesScript, hnoScript, hprevious⟩ := dormant_checks hcontext hyes hno hgroup
  have hback : safeSubtract32 (inputBase + 1) 1 = .ok inputBase := by
    simp [safeSubtract32, checkedSub, unwrap, okOr]
  simp only [main, dormantNoFollower, ensureDormantFollowerGroup, hcurrent, hnoScript,
    hyesScript, hback, (hprevious ()).mpr hsiblings, ok_bind, if_true]
  rfl

end Dormant

section Trading

variable (hcontext : CovenantContext crypto compiled.params
    ⟨some yes, some no, some collateral⟩ env)
  (hyes : RtHeld crypto compiled.params .yes .unresolvedYesRt side yes)
  (hno : RtHeld crypto compiled.params .no .unresolvedNoRt side no)
  (hcollateral : CollateralHeld crypto compiled.params .unresolvedCollateral
    ((n + 1) * (2 * compiled.params.basePayout)) collateral)
  (hgroup : SpendsGroup ⟨some yes, some no, some collateral⟩ env.transaction inputBase
    (.trading (n + 1)))

include hcontext hyes hno hcollateral hgroup

theorem coordinator_trading (hvalid : compiled.Valid crypto)
    (hkeyless : KeylessReissuance env.transaction)
    (hbound : (n + 1) * (2 * compiled.params.basePayout) < 2 ^ 64)
    (hcurrent : env.currentIndex = inputBase) :
    coordinator crypto compiled env 2 action = .ok outputs ↔
      Binds crypto compiled.params env.transaction side inputBase (.trading (n + 1)) action
        outputs := by
  subst hcurrent
  obtain ⟨-, hyesUtxo, -⟩ := groupInput (i := 0) hcontext hgroup rfl rfl
  obtain ⟨hsecond, hnoUtxo, -⟩ := groupInput (i := 1) hcontext hgroup rfl rfl
  obtain ⟨hthird, hlockedUtxo, -⟩ := groupInput (i := 2) hcontext hgroup rfl rfl
  rw [Nat.add_zero] at hyesUtxo
  cases action with
  | issue base =>
    change subsequentIssuance crypto compiled env env.currentIndex base = _ ↔ _
    exact subsequentIssuance_eq_ok hvalid hcontext rfl hyes hno hyesUtxo
      hnoUtxo hsecond hkeyless hcollateral hlockedUtxo hthird (by omega) rfl
  | cancel base =>
    change cancellation crypto compiled env env.currentIndex base = _ ↔ _
    exact cancellation_eq_ok hvalid hcontext rfl hyes hno hyesUtxo hnoUtxo
      hsecond hcollateral hlockedUtxo hthird (by omega) rfl hbound
  | resolve base resolution =>
    change activeSettlement crypto compiled env env.currentIndex base
      (verifyOracle crypto compiled (decide (resolution.outcome = .yes)) resolution.signature)
      (if decide (resolution.outcome = .yes) = true then 5 else 6) = _ ↔ _
    have htag : (resolvedSlot resolution.outcome).tag =
        if decide (resolution.outcome = .yes) = true then 5 else 6 := by
      cases resolution.outcome <;> rfl
    rw [activeSettlement_eq_ok hvalid hcontext rfl hyes hno hyesUtxo hnoUtxo
      hsecond hcollateral hlockedUtxo hthird _ _ htag fun _ => verifyOracle_eq_ok]
    constructor
    · rintro ⟨hquiet, hsigned, hwindow, hburned, hlocked, rfl⟩
      exact ⟨_, _, .resolve (by omega) hquiet hsigned hwindow hburned hlocked, rfl⟩
    · rintro ⟨after, places, hstep, rfl⟩
      generalize hstate : BinaryMarketState.trading (n + 1) = state at hstep
      cases hstep with
      | resolveDormant => cases hstate
      | resolve hn hquiet hsigned hwindow hburned hlocked =>
        cases hstate
        exact ⟨hquiet, hsigned, hwindow, hburned, hlocked, rfl⟩
  | expire base =>
    change activeSettlement crypto compiled env env.currentIndex base
      (checkLockHeight env compiled.params.expiryHeight) 7 = _ ↔ _
    rw [activeSettlement_eq_ok hvalid hcontext rfl hyes hno hyesUtxo hnoUtxo
      hsecond hcollateral hlockedUtxo hthird .expiredCollateral 7 rfl
      fun _ => checkLockHeight_eq_ok hvalid]
    constructor
    · rintro ⟨hquiet, hexpired, hwindow, hburned, hlocked, rfl⟩
      exact ⟨_, _, .expire (by omega) hquiet hexpired hwindow hburned hlocked, rfl⟩
    · rintro ⟨after, places, hstep, rfl⟩
      generalize hstate : BinaryMarketState.trading (n + 1) = state at hstep
      cases hstep with
      | expireDormant => cases hstate
      | expire hn hquiet hexpired hwindow hburned hlocked =>
        cases hstate
        exact ⟨hquiet, hexpired, hwindow, hburned, hlocked, rfl⟩
  | redeem base =>
    refine iff_of_false (by simp [coordinator, assertion, require]) ?_
    rintro ⟨after, places, hstep, -⟩
    exact hstep.not_redeem_trading

theorem trading_checks : inputBase + 1 < 2 ^ 32 ∧ inputBase + 2 < 2 ^ 32 ∧
    ensureInputScript crypto env inputBase (env.scriptForSlot 2) = .ok () ∧
    ensureInputScript crypto env (inputBase + 1) (env.scriptForSlot 3) = .ok () ∧
    ensureInputScript crypto env (inputBase + 2) (env.scriptForSlot 4) = .ok () ∧
    ∀ u, ensureSamePreviousTransaction3 env inputBase (inputBase + 1) (inputBase + 2) = .ok u ↔
      Siblings ⟨some yes, some no, some collateral⟩ (.trading (n + 1)) := by
  obtain ⟨-, hyesUtxo, hyesPrev⟩ := groupInput (i := 0) hcontext hgroup rfl rfl
  obtain ⟨hsecond, hnoUtxo, hnoPrev⟩ := groupInput (i := 1) hcontext hgroup rfl rfl
  obtain ⟨hthird, hlockedUtxo, hlockedPrev⟩ := groupInput (i := 2) hcontext hgroup rfl rfl
  refine ⟨hsecond, hthird,
    ensureInputScript_held hcontext .unresolvedYesRt 2 rfl hyes.script hyesUtxo,
    ensureInputScript_held hcontext .unresolvedNoRt 3 rfl hno.script hnoUtxo,
    ensureInputScript_held hcontext .unresolvedCollateral 4 rfl hcollateral.script hlockedUtxo,
    fun u => ?_⟩
  rw [siblings_trading]
  exact ensureSamePreviousTransaction3_eq_ok hyesPrev hnoPrev hlockedPrev

theorem main_trading (hcurrent : env.currentIndex = inputBase) :
    main crypto compiled env 2 action = .ok outputs ↔
      Siblings ⟨some yes, some no, some collateral⟩ (.trading (n + 1)) ∧
        coordinator crypto compiled env 2 action = .ok outputs := by
  obtain ⟨hsecond, hthird, hyesScript, hnoScript, hlockedScript, hprevious⟩ :=
    trading_checks hcontext hyes hno hcollateral hgroup
  have hchecks : ∀ u, coordinatorGroup crypto env 2 = .ok u ↔ _ := fun u => by
    simp only [coordinatorGroup, ensureUnresolvedCoordinatorGroup, hcurrent, OfNat.ofNat_ne_zero,
      if_false, if_true, safeAdd32_bind, hnoScript, hlockedScript, ok_bind, hprevious, hsecond,
      hthird, true_and]
    rfl
  simp only [main, hcurrent, hyesScript, ok_bind, OfNat.ofNat_ne_one, if_false, Nat.reduceEqDiff,
    check_bind hchecks]

theorem main_tradingFollowers
    (hsiblings : Siblings ⟨some yes, some no, some collateral⟩ (.trading (n + 1))) :
    (env.currentIndex = inputBase + 1 → main crypto compiled env 3 action = .ok []) ∧
      (env.currentIndex = inputBase + 2 → main crypto compiled env 4 action = .ok []) := by
  obtain ⟨-, hthird, hyesScript, hnoScript, hlockedScript, hchecks⟩ :=
    trading_checks hcontext hyes hno hcollateral hgroup
  have hprevious := (hchecks ()).mpr hsiblings
  have hback : ∀ i, safeSubtract32 (inputBase + i) i = .ok inputBase := fun i => by
    simp [safeSubtract32, checkedSub, unwrap, okOr]
  have hforth : ∀ i ≤ 2, safeAdd32 inputBase i = .ok (inputBase + i) :=
    fun i hi => unwrap_checkedAdd.mpr ⟨rfl, by omega⟩
  constructor
  · intro hcurrent
    simp only [main, unresolvedNoFollower, ensureUnresolvedNoFollowerGroup,
      hcurrent, hnoScript, hback, hforth 2 (by omega), hyesScript, hlockedScript,
      hprevious, ok_bind, OfNat.ofNat_ne_one, if_false, if_true]
    rfl
  · intro hcurrent
    simp only [main, unresolvedCollateralFollower,
      ensureUnresolvedCollateralFollowerGroup, hcurrent, hlockedScript, hback,
      hforth 1 (by omega), hyesScript, hnoScript, hprevious, ok_bind,
      OfNat.ofNat_ne_one, Nat.reduceEqDiff, if_false, if_true]
    rfl

end Trading

theorem expiryPayout_eq_ok {tokens payout : ℕ} :
    safeMultiply tokens compiled.params.basePayout = .ok payout ↔
      payout = tokens * compiled.params.basePayout ∧
        tokens * compiled.params.basePayout < 2 ^ 64 := by
  simp only [safeMultiply, unwrap_eq_ok, checkedMul_eq_some]
  constructor <;> rintro ⟨rfl, hlt⟩ <;> exact ⟨rfl, hlt⟩

section Settled

variable {yes : Bool} {unit : ℕ} {next : ℕ → BinaryMarketState}
  (hcontext : CovenantContext crypto compiled.params ⟨none, none, some collateral⟩ env)
  (hstate : Redeemable compiled.params.basePayout state yes unit amount slot next)
  (hcollateral : CollateralHeld crypto compiled.params slot amount collateral)
  (hgroup : SpendsGroup ⟨none, none, some collateral⟩ env.transaction env.currentIndex state)

include hcontext hstate hgroup

theorem settled_utxo : env.utxos[env.currentIndex]? = some collateral.txout := by
  cases hstate <;>
  · obtain ⟨-, hutxo, -⟩ := groupInput (i := 0) hcontext hgroup rfl rfl
    exact hutxo

include hcollateral

theorem coordinator_settled (hvalid : compiled.Valid crypto) :
    coordinator crypto compiled env slot.tag action = .ok outputs ↔
      Binds crypto compiled.params env.transaction side env.currentIndex state action outputs := by
  have hutxo := settled_utxo hcontext hstate hgroup
  cases action with
  | redeem base =>
    cases hstate with
    | resolvedYes =>
      change resolvedRedemption crypto compiled env 5 env.currentIndex base =
        _ ↔ _
      rw [resolvedRedemption, assertion_bind, and_iff_right (.inl rfl)]
      exact redemption_eq_ok hvalid hcontext rfl hcollateral hutxo (fun _ _ => assertion_eq_ok)
        (fun _ _ => collateralForPairs_eq_ok hvalid) (.resolvedYes _) fun yes => by simp [Pays]
    | resolvedNo =>
      change resolvedRedemption crypto compiled env 6 env.currentIndex base =
        _ ↔ _
      rw [resolvedRedemption, assertion_bind, and_iff_right (.inr rfl)]
      exact redemption_eq_ok hvalid hcontext rfl hcollateral hutxo (fun _ _ => assertion_eq_ok)
        (fun _ _ => collateralForPairs_eq_ok hvalid) (.resolvedNo _) fun yes => by simp [Pays]
    | expired collateral yes =>
      change expiryRedemption crypto compiled env 7 env.currentIndex base =
        _ ↔ _
      rw [expiryRedemption, assertion_bind, and_iff_right rfl]
      exact redemption_eq_ok hvalid hcontext rfl hcollateral hutxo
        (fun _ _ => iff_of_true rfl trivial) (fun _ _ => expiryPayout_eq_ok) (.expired _ yes)
        fun yes => by simp [Pays]
  | issue | cancel | resolve | expire =>
    refine iff_of_false ?_ ?_
    · cases hstate <;> simp [coordinator, assertion, require, BinaryMarketSlot.tag]
    · rintro ⟨after, places, hstep, -⟩
      cases hstate <;> cases hstep

theorem main_settled :
    main crypto compiled env slot.tag action = .ok outputs ↔
      coordinator crypto compiled env slot.tag action = .ok outputs := by
  have hutxo := settled_utxo hcontext hstate hgroup
  have hscript := ensureInputScript_held hcontext slot _ rfl hcollateral.script hutxo
  unfold main
  rw [hscript, ok_bind]
  cases hstate <;> rfl

end Settled

/-! ## The program -/

theorem main_head (hvalid : compiled.Valid crypto)
    (hcontext : CovenantContext crypto compiled.params live env)
    (hkeyless : KeylessReissuance env.transaction)
    (hholds : HoldsOutputs crypto compiled.params side state live)
    (hgroup : SpendsGroup live env.transaction env.currentIndex state) :
    main crypto compiled env (BinaryMarketCoordinatorRole.forState state).slot.tag
        action = .ok outputs ↔
      Siblings live state ∧
        Binds crypto compiled.params env.transaction side env.currentIndex state action
          outputs := by
  cases hholds with
  | dormant hyes hno =>
    rw [← coordinator_dormant hcontext hyes hno hgroup hvalid hkeyless rfl]
    exact main_dormant hcontext hyes hno hgroup rfl
  | trading hbound hyes hno hcollateral =>
    rw [← coordinator_trading hcontext hyes hno hcollateral hgroup hvalid hkeyless hbound rfl]
    exact main_trading hcontext hyes hno hcollateral hgroup rfl
  | settled hstate hwhole hcollateral =>
    have hslot := hstate.coordinatorSlot
    rw [hslot, ← coordinator_settled hcontext hstate hcollateral hgroup hvalid,
      and_iff_right hstate.siblings]
    exact main_settled hcontext hstate hcollateral hgroup

/-! ## The inputs behind an accepted head -/

theorem verifyRtFlip_spends {inputIndex outputIndex : ℕ} {leg : RtLeg} {isA : Bool}
    (hvalid : compiled.Valid crypto)
    (hflip : verifyRtFlip env inputIndex outputIndex (compiled.rt leg) = .ok isA) :
    ∃ side txout, env.utxos[inputIndex]? = some txout ∧
      crypto.commitments (rtAssetId compiled.params leg) (rtFactors leg side) =
        some (txout.asset, txout.value) := by
  simp only [verifyRtFlip, bind_eq_ok, assertion_eq_ok] at hflip
  obtain ⟨⟨asset, value⟩, hinput, _, -, -, rfl, -, -, hflip⟩ := hflip
  obtain ⟨txout, hutxo, hasset, hvalue⟩ := confidentialAmounts_eq_ok.mp hinput
  obtain ⟨side, rfl⟩ : ∃ side, asset = (compiled.rt leg).asset side := by
    split at hflip
    · next hA => exact ⟨.a, hA⟩
    · obtain ⟨_, hB, -⟩ := bind_eq_ok.mp hflip
      exact ⟨.b, assertion_eq_ok.mp hB⟩
  exact ⟨side, txout, hutxo, by rw [hvalid.commitments leg side, hasset, hvalue]⟩

theorem coordinator_flips (hok : coordinator crypto compiled env 0 action = .ok outputs) :
    ∃ index isA, verifyRtFlip env (env.currentIndex + 1) index (compiled.rt .no) = .ok isA := by
  have hsettled : ∀ {base authorize}, dormantSettlement crypto compiled env env.currentIndex base
      authorize = .ok outputs → ∃ index isA,
        verifyRtFlip env (env.currentIndex + 1) index (compiled.rt .no) = .ok isA := by
    intro base authorize hok
    simp only [dormantSettlement, safeAdd32_bind] at hok
    simp only [bind_eq_ok, ensureRtBurn] at hok
    obtain ⟨-, -, -, -, -, -, -, -, -, -, _, -, noIsA, ⟨isA, hflip, -⟩, -⟩ := hok
    exact ⟨_, isA, hflip⟩
  cases action with
  | issue base =>
    simp only [coordinator, if_true, initialIssuance, safeAdd32_bind] at hok
    simp only [bind_eq_ok, ensureRtContinuation] at hok
    obtain ⟨-, -, -, -, -, _, -, noIsA, ⟨isA, hflip, -⟩, -⟩ := hok
    exact ⟨_, isA, hflip⟩
  | resolve | expire => exact hsettled hok
  | cancel | redeem => simp [coordinator, assertion, require] at hok

/-- The one unit of the NO reissuance token lies in the tracked output: no other
output which the transaction spends commits to it. -/
def SoleNoToken (crypto : MarketCrypto) (params : BinaryMarketParams)
    (live : BinaryMarketLiveOutputs) (env : CovenantEnv) : Prop :=
  ∀ (index : ℕ) (input : TxIn) (txout : TxOut) (tracked : TrackedContractOutput) (side : RtSide),
    env.transaction.input[index]? = some input → env.utxos[index]? = some txout →
    live.noRt = some tracked →
    crypto.commitments (rtAssetId params .no) (rtFactors .no side) =
      some (txout.asset, txout.value) → input.previousOutput = tracked.outpoint

theorem main_dormant_spends (hvalid : compiled.Valid crypto)
    (hsole : SoleNoToken crypto compiled.params live env) (hno : live.noRt = some no)
    (hmain : main crypto compiled env 0 action = .ok outputs) :
    env.currentIndex + 1 < 2 ^ 32 ∧
      inputPrevOutpoint env (env.currentIndex + 1) = some no.outpoint := by
  simp only [main, zero_ne_one, OfNat.zero_ne_ofNat, if_false, bind_eq_ok] at hmain
  obtain ⟨-, -, _, hgroup, hcoordinator⟩ := hmain
  simp only [coordinatorGroup, if_true, safeAdd32_bind] at hgroup
  obtain ⟨hsecond, hgroup⟩ := hgroup
  simp only [ensureDormantCoordinatorGroup, ensureSamePreviousTransaction2, bind_eq_ok,
    unwrap_eq_ok] at hgroup
  obtain ⟨-, -, -, -, previous, hprevious, -⟩ := hgroup
  obtain ⟨input, hinput, rfl⟩ := Option.map_eq_some_iff.mp hprevious
  obtain ⟨_, _, hflip⟩ := coordinator_flips hcoordinator
  obtain ⟨side, txout, hutxo, hcommitted⟩ := verifyRtFlip_spends hvalid hflip
  exact ⟨hsecond, hprevious.trans
    (congrArg some (hsole _ _ _ _ side hinput hutxo hno hcommitted))⟩

theorem main_trading_spends {head : OutPoint}
    (hhead : inputPrevOutpoint env env.currentIndex = some head)
    (hmain : main crypto compiled env 2 action = .ok outputs) :
    env.currentIndex + 2 < 2 ^ 32 ∧
      inputPrevOutpoint env (env.currentIndex + 1) = some ⟨head.txid, head.vout + 1⟩ ∧
      inputPrevOutpoint env (env.currentIndex + 2) = some ⟨head.txid, head.vout + 2⟩ := by
  simp only [main, OfNat.ofNat_ne_one, Nat.reduceEqDiff, if_false, bind_eq_ok] at hmain
  obtain ⟨-, -, _, hgroup, -⟩ := hmain
  simp only [coordinatorGroup, OfNat.ofNat_ne_zero, if_false, if_true, safeAdd32_bind] at hgroup
  obtain ⟨-, hthird, hgroup⟩ := hgroup
  simp only [ensureUnresolvedCoordinatorGroup, bind_eq_ok] at hgroup
  obtain ⟨-, -, -, -, hsame⟩ := hgroup
  have hread := hsame
  simp only [ensureSamePreviousTransaction3, bind_eq_ok, unwrap_eq_ok] at hread
  obtain ⟨-, -, no, hno, collateral, hcollateral, -⟩ := hread
  obtain ⟨-, rfl, rfl⟩ := (ensureSamePreviousTransaction3_eq_ok hhead hno hcollateral).mp hsame
  exact ⟨hthird, hno, hcollateral⟩

end

end Covenant

/-! ## Agreement -/

section

variable {crypto : MarketCrypto} {compiled : CompiledBinaryMarket} {params : BinaryMarketParams}
  {live : BinaryMarketLiveOutputs} {env : CovenantEnv} {side : RtSide} {state : BinaryMarketState}
  {inputBase : ℕ} {outputs : List SlotOutput} {places : List (ℕ × BinaryMarketSlot)}
  {found : List BinaryMarketContinuation}

def CovenantEnv.at (env : CovenantEnv) (index : ℕ) : CovenantEnv :=
  { env with currentIndex := index }

theorem CovenantContext.at (hcontext : CovenantContext crypto params live env)
    (index : ℕ) : CovenantContext crypto params live (env.at index) :=
  ⟨hcontext.spends, hcontext.slots, hcontext.burn, hcontext.slotCollision, hcontext.burnCollision⟩

/-- A transaction spends the head of a market, and the covenant accepts it and the
followers behind it.  The coordinator on the head binds outputs to slots. -/
structure CovenantAccepts (crypto : MarketCrypto)
    (compiled : CompiledBinaryMarket) (live : BinaryMarketLiveOutputs)
    (env : CovenantEnv) (state : BinaryMarketState) (inputBase : ℕ)
    (actions : ℕ → BinaryMarketCoordinatorAction) (outputs : List SlotOutput) : Prop where
  spends : SpendsAt live env.transaction (BinaryMarketCoordinatorRole.forState state).slot inputBase
  head : Covenant.main crypto compiled (env.at inputBase)
    (BinaryMarketCoordinatorRole.forState state).slot.tag (actions inputBase) = .ok outputs
  followers : ∀ entry ∈ (groupSlots state).zipIdx.tail, ∃ found,
    Covenant.main crypto compiled (env.at (inputBase + entry.2)) entry.1.tag
      (actions (inputBase + entry.2)) = .ok found

theorem SpendsGroup.head (hgroup : SpendsGroup live transaction inputBase state) :
    SpendsAt live transaction (BinaryMarketCoordinatorRole.forState state).slot inputBase := by
  rcases state with (_ | _) | _ | _ | _ <;> exact hgroup _ List.mem_cons_self

/-- The followers are the other outputs of the market. -/
theorem CovenantAccepts.group {actions : ℕ → BinaryMarketCoordinatorAction}
    (hvalid : compiled.Valid crypto) (hholds : HoldsOutputs crypto compiled.params side state live)
    (hsole : Covenant.SoleNoToken crypto compiled.params live env)
    (hsiblings : ∀ n, state = .trading (n + 1) → Siblings live state)
    (haccepts : CovenantAccepts crypto compiled live env state inputBase actions outputs) :
    SpendsGroup live env.transaction inputBase state := by
  have hspent : ∀ {index slot tracked}, live.forSlot slot = some tracked → index < 2 ^ 32 →
      Covenant.inputPrevOutpoint env index = some tracked.outpoint →
      SpendsAt live env.transaction slot index := by
    intro index slot tracked htracked hbound hprevious
    obtain ⟨input, hinput, hspends⟩ := Option.map_eq_some_iff.mp hprevious
    exact ⟨tracked, input, htracked, hbound, hinput, hspends⟩
  have hhead := haccepts.spends
  cases hholds with
  | dormant =>
    have hsole : Covenant.SoleNoToken crypto compiled.params _ (env.at inputBase) := hsole
    obtain ⟨hsecond, hno⟩ := Covenant.main_dormant_spends hvalid hsole rfl haccepts.head
    simp only [SpendsGroup, groupSlots, List.zipIdx_cons, List.zipIdx_nil, List.forall_mem_cons]
    exact ⟨hhead, hspent rfl hsecond hno, by simp⟩
  | trading =>
    obtain ⟨_, input, ⟨⟩, -, hinput, hspends⟩ := haccepts.spends
    obtain ⟨-, hno, hcollateral⟩ := siblings_trading.mp (hsiblings _ rfl)
    obtain ⟨hthird, hnoInput, hcollateralInput⟩ := Covenant.main_trading_spends
      (Option.map_eq_some_iff.mpr ⟨input, hinput, hspends⟩) haccepts.head
    have hsecond : inputBase + 1 < 2 ^ 32 := Nat.lt_of_succ_lt hthird
    rw [← hno] at hnoInput
    rw [← hcollateral] at hcollateralInput
    simp only [SpendsGroup, groupSlots, List.zipIdx_cons, List.zipIdx_nil, List.forall_mem_cons]
    exact ⟨hhead, hspent rfl hsecond hnoInput, hspent rfl hthird hcollateralInput, by simp⟩
  | settled hstate =>
    intro entry hentry
    cases hstate <;> cases List.mem_singleton.mp hentry <;> exact hhead

def amountAt (transaction : Transaction) (index : ℕ) : ℕ :=
  ((transaction.output[index]?).bind explicitAssetValue).elim 0 Prod.snd

/-- The state a covenant run leaves: the outputs it bound to slots tell the
state and its collateral, and without an output nothing is left. -/
def enforcedState (params : BinaryMarketParams) (transaction : Transaction)
    (before : BinaryMarketState) (action : BinaryMarketCoordinatorAction)
    (outputs : List SlotOutput) : BinaryMarketState :=
  match outputs with
  | [(index, tag)] =>
    if tag = 5 then .resolvedYes (amountAt transaction index)
    else if tag = 6 then .resolvedNo (amountAt transaction index)
    else .expired (amountAt transaction index)
  | [_, _] => .trading 0
  | [_, _, (index, _)] =>
    .trading (amountAt transaction index / (2 * params.basePayout))
  | _ =>
    match action, before with
    | .resolve _ resolution, _ => resolvedState resolution.outcome 0
    | .expire _, _ => .expired 0
    | _, .resolvedYes _ => .resolvedYes 0
    | _, .resolvedNo _ => .resolvedNo 0
    | _, _ => .expired 0

theorem ExplicitAt.amountAt {index : ℕ}
    {script : Script} {asset : AssetId} (hat : ExplicitAt transaction index script asset amount) :
    amountAt transaction index = amount := by
  obtain ⟨txout, hout, -, hvalue⟩ := hat
  simp [DeadcatNode.amountAt, hout, hvalue]

theorem MarketTransition.enforcedState
    {action : BinaryMarketCoordinatorAction} {after : BinaryMarketState}
    (hpayout : params.basePayout ≠ 0)
    (hstep : MarketTransition crypto params transaction side inputBase state action after places) :
    enforcedState params transaction state action (Covenant.slotOutputs places) = after := by
  have hunit : 0 < 2 * params.basePayout := by omega
  cases hstep with
  | issue _ _ _ _ _ _ _ hlocked | cancelPart _ _ _ _ _ hlocked =>
    simp only [Covenant.slotOutputs, List.map_cons, List.map_nil,
      DeadcatNode.enforcedState, hlocked.amountAt, Nat.mul_div_cancel _ hunit]
  | cancelAll | resolveDormant | expireDormant => rfl
  | @resolve n base resolution hn hquiet hsigned hwindow hburned hlocked =>
    have hamount := hlocked.amountAt
    simp only [Covenant.slotOutputs, List.map_cons, List.map_nil,
      DeadcatNode.enforcedState, hamount]
    cases resolution.outcome <;> rfl
  | expire hn hquiet hexpired hwindow hburned hlocked =>
    have hamount := hlocked.amountAt
    simp only [Covenant.slotOutputs, List.map_cons, List.map_nil,
      DeadcatNode.enforcedState, hamount]
    rfl
  | redeemPart hstate htokens hleft hpaid hbound hquiet hwindow hlocked hburned =>
    have hamount := hlocked.amountAt
    simp only [Covenant.slotOutputs, List.map_cons, List.map_nil,
      DeadcatNode.enforcedState, hamount]
    cases hstate <;> rfl
  | redeemAll hstate => cases hstate <;> rfl

/-- What the covenant enforces is what the interpreter returns. -/
structure CovenantEnforces (crypto : MarketCrypto) (params : BinaryMarketParams)
    (live : BinaryMarketLiveOutputs) (transaction : Transaction)
    (state : BinaryMarketState) (action : BinaryMarketCoordinatorAction)
    (outputs : List SlotOutput) (result : BinaryMarketInterpretation) : Prop where
  state : result.after = enforcedState params transaction state action outputs
  spent : result.spentOutpoints = live.outpoints
  outputs : outputs = result.continuations.map fun continuation =>
    (continuation.output.outpoint.vout, continuation.slot.tag)
  continuations : ∀ continuation ∈ result.continuations,
    continuation.output.outpoint.txid = crypto.txid transaction ∧
      transaction.output[continuation.output.outpoint.vout]? = some continuation.output.txout

theorem ContinuesAt.slotOutputs (hfound : ContinuesAt crypto transaction found places) :
    Covenant.slotOutputs places = found.map fun continuation =>
      (continuation.output.outpoint.vout, continuation.slot.tag) := by
  induction hfound with
  | nil => rfl
  | cons hitem hrest ih =>
    obtain ⟨txout, hout, rfl⟩ := hitem
    rw [List.map_cons, ← ih]
    rfl

theorem ContinuesAt.output (hfound : ContinuesAt crypto transaction found places) :
    ∀ continuation ∈ found, continuation.output.outpoint.txid = crypto.txid transaction ∧
        transaction.output[continuation.output.outpoint.vout]? =
          some continuation.output.txout := by
  induction hfound with
  | nil => simp
  | cons hitem hrest ih =>
    obtain ⟨txout, hout, rfl⟩ := hitem
    exact List.forall_mem_cons.mpr ⟨⟨rfl, hout⟩, ih⟩

theorem followers_accept {actions : ℕ → BinaryMarketCoordinatorAction}
    (hcontext : CovenantContext crypto compiled.params live env)
    (hholds : HoldsOutputs crypto compiled.params side state live)
    (hgroup : SpendsGroup live env.transaction inputBase state) (hsiblings : Siblings live state) :
    ∀ entry ∈ (groupSlots state).zipIdx.tail, ∃ found,
      Covenant.main crypto compiled (env.at (inputBase + entry.2)) entry.1.tag
        (actions (inputBase + entry.2)) = .ok found := by
  cases hholds with
  | dormant hyes hno =>
    intro entry hentry
    cases List.mem_singleton.mp hentry
    exact ⟨[], Covenant.main_dormantFollower (hcontext.at _) hyes hno hgroup hsiblings rfl⟩
  | trading hbound hyes hno hcollateral =>
    intro entry hentry
    rcases List.mem_cons.mp hentry with rfl | hlast
    · exact ⟨[], (Covenant.main_tradingFollowers (hcontext.at (inputBase + 1))
        hyes hno hcollateral hgroup hsiblings).1 rfl⟩
    · cases List.mem_singleton.mp hlast
      exact ⟨[], (Covenant.main_tradingFollowers (hcontext.at (inputBase + 2))
        hyes hno hcollateral hgroup hsiblings).2 rfl⟩
  | settled hstate hwhole hcollateral =>
    intro entry hentry
    cases hstate <;> cases hentry

/-- The interpreter reports a spend exactly when the covenant accepts the inputs
of the market, and then it reports what the covenant enforces. -/
theorem covenant_agrees {actions : ℕ → BinaryMarketCoordinatorAction} {sides : BinaryMarketRtSides}
    (hcompiled : CompiledBinaryMarket.new crypto params = .ok compiled)
    (hlive : validateLiveOutputs crypto compiled state live = .ok ())
    (hsides : inferLiveRtSides crypto compiled.params state live = .ok sides)
    (hcontext : CovenantContext crypto params live env)
    (hkeyless : KeylessReissuance env.transaction)
    (hsole : Covenant.SoleNoToken crypto params live env)
    (hsiblings : ∀ n, state = .trading (n + 1) → Siblings live state) :
    ((∃ result, interpretAction crypto compiled state live env.transaction
        inputBase (actions inputBase) = .ok result) ↔
      ∃ outputs, CovenantAccepts crypto compiled live env state inputBase actions outputs) ∧
    ∀ result outputs, interpretAction crypto compiled state live env.transaction inputBase
        (actions inputBase) = .ok result →
      CovenantAccepts crypto compiled live env state inputBase actions outputs →
      CovenantEnforces crypto params live env.transaction state
        (actions inputBase) outputs result := by
  obtain ⟨rfl, hvalid⟩ := CompiledBinaryMarket.new_eq_ok hcompiled
  obtain ⟨side, hholds, -⟩ := holdsOutputs_of_validated hlive hsides
  have hhead : SpendsGroup live env.transaction inputBase state → ∀ outputs,
      Covenant.main crypto compiled (env.at inputBase)
        (BinaryMarketCoordinatorRole.forState state).slot.tag
        (actions inputBase) = .ok outputs ↔ _ := fun hgroup _ =>
    Covenant.main_head hvalid (hcontext.at inputBase) hkeyless hholds hgroup
  constructor
  · constructor
    · rintro ⟨result, hresult⟩
      have hreported := reported_of_interpretAction hvalid hholds hresult
      obtain ⟨places, hstep, -⟩ := hreported.transition
      exact ⟨_, hreported.group.head,
        (hhead hreported.group _).mpr ⟨hreported.siblings, _, _, hstep, rfl⟩,
        followers_accept hcontext hholds hreported.group hreported.siblings⟩
    · rintro ⟨outputs, haccepts⟩
      have hgroup := haccepts.group hvalid hholds hsole hsiblings
      obtain ⟨hsame, after, places, hstep, -⟩ := (hhead hgroup _).mp haccepts.head
      obtain ⟨result, hresult, -⟩ :=
        interpretAction_of_transition hvalid hholds hgroup hsame hstep
      exact ⟨result, hresult⟩
  · intro result outputs hresult haccepts
    have hreported := reported_of_interpretAction hvalid hholds hresult
    obtain ⟨places, hstep, hfound⟩ := hreported.transition
    have hsame := (hhead hreported.group _).mpr ⟨hreported.siblings, _, _, hstep, rfl⟩
    have houtputs : outputs = Covenant.slotOutputs places :=
      Except.ok.inj (haccepts.head.symm.trans hsame)
    subst houtputs
    exact ⟨(hstep.enforcedState hvalid.basePayout_ne).symm,
      hreported.spent.trans hholds.groupOutpoints, hfound.slotOutputs, hfound.output⟩

end

/-! ## On the sample market -/

/-- The sample functions with the burn script hashed as the program expects. -/
def covenantCrypto : MarketCrypto :=
  { sampleCrypto with
    scriptHash := fun script =>
      if script = burnScript then Covenant.burnScriptHash
      else 2 * sampleCrypto.scriptHash script }

def sampleScriptForSlot (tag : ℕ) : ℕ :=
  (BinaryMarketSlot.all[tag]?).elim 0 fun slot =>
    covenantCrypto.scriptHash (sampleSlotScript sampleParams slot)

def sampleEnv (transaction : Transaction) : CovenantEnv where
  transaction
  utxos := [sampleLive.yesRt, sampleLive.noRt].filterMap (Option.map TrackedContractOutput.txout)
  currentIndex := 0
  scriptForSlot := sampleScriptForSlot

/-- The first issuance, with inflation keys of amount zero on its first input. -/
def keyedIssueTransaction : Transaction :=
  { issueTransaction with
    input := issueTransaction.input.modifyHead fun input =>
      { input with
        assetIssuance := ⟨RtSide.a.abf, 6, .explicit 5, .explicit 0⟩ } }

/-- The first issuance, whose second input spends another output with the
commitments of the NO reissuance token. -/
def twinIssueTransaction : Transaction :=
  { issueTransaction with
    input := issueTransaction.input.mapIdx fun index input =>
      if index = 1 then { input with previousOutput := ⟨11, 7⟩ } else input }

theorem sampleEnv_context {second : OutPoint} (hsecond : second ≠ ⟨11, 0⟩)
    (hinput : transaction.input.map TxIn.previousOutput = [⟨11, 0⟩, second])
    (houtput : transaction.output = issueTransaction.output) :
    CovenantContext covenantCrypto sampleParams sampleLive (sampleEnv transaction) where
  spends := by
    intro index input slot tracked hat hlive hspends
    have hprevious : (transaction.input.map TxIn.previousOutput)[index]? =
        some tracked.outpoint := by
      rw [List.getElem?_map]
      rw [show transaction.input[index]? = some input from hat, Option.map_some, hspends]
    rw [hinput] at hprevious
    cases slot <;> cases hlive <;> rcases index with _ | _ | index <;>
      first | rfl | (exact absurd (Option.some.inj hprevious) hsecond) |
        (exact absurd hprevious (by decide +kernel)) | (exact absurd hprevious (by simp))
  slots slot := by
    change sampleScriptForSlot slot.tag = _
    cases slot <;> decide +kernel
  burn := by decide +kernel
  slotCollision := by
    change ∀ output ∈ transaction.output, _
    rw [houtput]
    intro output hmem slot
    simp only [issueTransaction, List.mem_cons, List.not_mem_nil, or_false] at hmem
    rcases hmem with rfl | rfl | rfl <;> cases slot <;> decide +kernel
  burnCollision := by
    change ∀ output ∈ transaction.output, _
    rw [houtput]
    decide +kernel

theorem issueTransaction_keyless : KeylessReissuance issueTransaction := by
  unfold KeylessReissuance
  decide +kernel

theorem sampleEnv_soleNoToken
    (hinput : transaction.input.map TxIn.previousOutput = [⟨11, 0⟩, ⟨11, 1⟩]) :
    Covenant.SoleNoToken covenantCrypto sampleParams sampleLive (sampleEnv transaction) := by
  intro index input txout tracked side hat hutxo hlive hcommitted
  cases hlive
  rcases index with _ | _ | index
  · cases hutxo
    cases side <;> exact absurd hcommitted (by decide +kernel)
  · have hsecond := congrArg (fun inputs => inputs[1]?) hinput
    rw [List.getElem?_map, show transaction.input[1]? = some input from hat] at hsecond
    exact Option.some.inj hsecond
  · cases hutxo

theorem sampleEnv_accepts
    (hspends : (transaction.input[0]?).map TxIn.previousOutput = some ⟨11, 0⟩)
    (hhead : Covenant.main covenantCrypto sampleCompiled (sampleEnv transaction) 0 (.issue 0) =
      .ok [(0, 2), (1, 3), (2, 4)])
    (hfollower : Covenant.main covenantCrypto sampleCompiled ((sampleEnv transaction).at 1) 1
      (.issue 0) = .ok []) :
    CovenantAccepts covenantCrypto sampleCompiled sampleLive (sampleEnv transaction) (.trading 0) 0
      (fun _ => .issue 0) [(0, 2), (1, 3), (2, 4)] := by
  obtain ⟨input, hinput, hprevious⟩ := Option.map_eq_some_iff.mp hspends
  refine ⟨⟨_, input, rfl, by norm_num, hinput, hprevious⟩, hhead, ?_⟩
  intro entry hentry
  cases List.mem_singleton.mp hentry
  exact ⟨[], hfollower⟩

theorem first_issuance_accepted :
    ∃ outputs, CovenantAccepts covenantCrypto sampleCompiled sampleLive
      (sampleEnv issueTransaction) (.trading 0) 0 (fun _ => .issue 0)
      outputs := by
  have hcompiled : CompiledBinaryMarket.new covenantCrypto sampleParams =
    .ok sampleCompiled := by decide +kernel
  have hlive : validateLiveOutputs covenantCrypto sampleCompiled (.trading 0)
    sampleLive = .ok () := by decide +kernel
  have hsides : inferLiveRtSides covenantCrypto sampleCompiled.params
    (.trading 0) sampleLive = .ok ⟨some .a, some .a⟩ := by decide +kernel
  have hcontext : CovenantContext covenantCrypto sampleParams sampleLive
    (sampleEnv issueTransaction) := sampleEnv_context (by decide) rfl rfl
  have hissued : isOkAnd (interpretAction covenantCrypto sampleCompiled
      (.trading 0) sampleLive issueTransaction 0 (.issue 0))
      (fun result => result.after = .trading 5) = true := by decide +kernel
  obtain ⟨result, hresult, -⟩ := isOkAnd_iff.mp hissued
  exact (covenant_agrees hcompiled hlive hsides hcontext issueTransaction_keyless
    (sampleEnv_soleNoToken rfl) (by simp)).1.mp ⟨result, hresult⟩

/-- Inflation keys on a reissuance are not visible to the covenant, and neither is
which output with the commitments of the NO token is spent: it accepts both
issuances, while the interpreter refuses them. -/
theorem covenant_accepts_refused :
    CompiledBinaryMarket.new covenantCrypto sampleParams = .ok sampleCompiled ∧
    validateLiveOutputs covenantCrypto sampleCompiled (.trading 0) sampleLive = .ok () ∧
    inferLiveRtSides covenantCrypto sampleParams (.trading 0) sampleLive = .ok ⟨some .a, some .a⟩ ∧
    Covenant.SoleNoToken covenantCrypto sampleParams sampleLive (sampleEnv keyedIssueTransaction) ∧
    KeylessReissuance twinIssueTransaction ∧
    ∀ entry ∈ [(keyedIssueTransaction, "issuance identity"),
        (twinIssueTransaction, "input window")],
      CovenantContext covenantCrypto sampleParams sampleLive (sampleEnv entry.1) ∧
      interpretAction covenantCrypto sampleCompiled (.trading 0) sampleLive entry.1 0 (.issue 0) =
        .error (.inconsistent entry.2) ∧
      CovenantAccepts covenantCrypto sampleCompiled sampleLive (sampleEnv entry.1) (.trading 0) 0
        (fun _ => .issue 0) [(0, 2), (1, 3), (2, 4)] := by
  refine ⟨by decide +kernel, by decide +kernel, by decide +kernel, sampleEnv_soleNoToken rfl,
    by unfold KeylessReissuance; decide +kernel, ?_⟩
  simp only [List.forall_mem_cons]
  refine ⟨⟨sampleEnv_context (by decide) rfl rfl, by decide +kernel,
    sampleEnv_accepts rfl (by decide +kernel) (by decide +kernel)⟩,
    ⟨sampleEnv_context (by decide) rfl rfl, by decide +kernel,
    sampleEnv_accepts rfl (by decide +kernel) (by decide +kernel)⟩, by simp⟩

end DeadcatNode
