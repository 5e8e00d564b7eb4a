import DeadcatNode.CovenantAcceptance
import DeadcatNode.MarketCreation

/-!
# Lineages the covenant accepts

A market starts with a verified creation and lives on in the outputs its
covenant binds to slots.  The chain knows only the covenant.  Whatever sequence
of spends it accepts, the interpreter can follow it, and the states along it are
those of the economics.
-/

namespace DeadcatNode

open Checked

variable {crypto : MarketCrypto} {compiled : CompiledBinaryMarket} {params : BinaryMarketParams}
  {state : BinaryMarketState} {live : BinaryMarketLiveOutputs}

/-- Spends accepted one after the other, from the creation of the market on.
The outputs bound to slots are the ones the next spend consumes. -/
inductive CovenantLineage (crypto : MarketCrypto) (compiled : CompiledBinaryMarket) :
    BinaryMarketState → BinaryMarketLiveOutputs → Prop where
  | created {live : BinaryMarketLiveOutputs}
      (hlive : validateLiveOutputs crypto compiled (.trading 0) live = .ok ())
      (hsides : inferLiveRtSides crypto compiled.params (.trading 0) live =
        .ok ⟨some .a, some .a⟩) : CovenantLineage crypto compiled (.trading 0) live
  | spend {state : BinaryMarketState} {live : BinaryMarketLiveOutputs} {env : CovenantEnv}
      {inputBase : ℕ} {actions : ℕ → BinaryMarketCoordinatorAction}
      {places : List (ℕ × BinaryMarketSlot)} {found : List BinaryMarketContinuation}
      (hlineage : CovenantLineage crypto compiled state live)
      (hcontext : CovenantContext crypto compiled.params live env)
      (hkeyless : KeylessReissuance env.transaction)
      (hsole : Covenant.SoleNoToken crypto compiled.params live env)
      (haccepts : CovenantAccepts crypto compiled live env state inputBase actions
        (Covenant.slotOutputs places))
      (hfound : ContinuesAt crypto env.transaction found places) :
      CovenantLineage crypto compiled (enforcedState compiled.params env.transaction state
        (actions inputBase) (Covenant.slotOutputs places)) (.ofContinuations found)

/-! ## Creations -/

/-- The commitments to a reissuance token tell its sides apart. -/
def MarketCrypto.SidesDistinct (crypto : MarketCrypto) : Prop :=
  ∀ assetId leg commitments, crypto.commitments assetId (rtFactors leg .a) = some commitments →
    crypto.commitments assetId (rtFactors leg .b) ≠ some commitments

section Creation

variable {transaction : Transaction} {position : ChainPosition} {anchor : ChainAnchor}
  {network : LiquidNetwork} {policyAsset : AssetId} {supplied : Option BinaryMarketParams}
  {expected : Option ContractId} {verified : VerifiedRegistration}

theorem dormantOutput_rtAt {slot : BinaryMarketSlot} (leg : RtLeg) {index : ℕ}
    (hindex : dormantOutput crypto transaction params slot (rtAssetId params leg) leg = .ok index) :
    RtAt crypto params transaction index (crypto.slotScript params slot) leg .a := by
  simp only [dormantOutput, uniqueMarketOutput, bind_eq_ok, okOr_eq_ok] at hindex
  obtain ⟨commitments, hcommitments, hindex⟩ := hindex
  split at hindex
  · next found hfound =>
    simp only [bind_eq_ok, pure_eq_ok] at hindex
    obtain ⟨_, -, rfl⟩ := hindex
    obtain ⟨entry, hentry, rfl⟩ := List.mem_map.mp (hfound ▸ List.mem_singleton_self found)
    obtain ⟨hzip, hmatches⟩ := List.mem_filter.mp hentry
    simp only [Bool.and_eq_true, decide_eq_true_eq] at hmatches
    refine ⟨entry.1, List.mem_zipIdx_iff_getElem?.mp hzip, hmatches.1.1, ?_⟩
    rw [hcommitments, hmatches.1.2, hmatches.2]
  · cases hindex

theorem RtAt.held_a (hdistinct : crypto.SidesDistinct) (hvalid : compiled.Valid crypto)
    {slot : BinaryMarketSlot} {leg : RtLeg} {index : ℕ}
    (hat : RtAt crypto compiled.params transaction index
      (crypto.slotScript compiled.params slot) leg .a) :
    ∃ txout, transaction.output[index]? = some txout ∧ ∀ outpoint,
      RtHeld crypto compiled.params leg slot .a ⟨outpoint, txout⟩ := by
  obtain ⟨txout, hout, hscript, hside⟩ := hat
  refine ⟨txout, hout, fun outpoint => ⟨hscript, inferSide_eq_some.mpr ⟨hside, ?_⟩⟩⟩
  exact ⟨_, hvalid.commitments leg .b, fun hsame =>
    hdistinct _ _ _ hside ((hvalid.commitments leg .b).trans (congrArg some hsame))⟩

/-- A verified creation is the start of a lineage: its two tracked outputs are
those of the new market, with both reissuance tokens on side A. -/
theorem verified_creation_starts_lineage (hdistinct : crypto.SidesDistinct)
    (hverified : verifyBinaryMarketCreation crypto transaction position anchor network
      policyAsset supplied expected = .ok verified) :
    ∃ compiled yes no yesTxout noTxout,
      let yesAt : OutPoint := ⟨crypto.txid transaction, yes⟩
      let noAt : OutPoint := ⟨crypto.txid transaction, no⟩
      let live : BinaryMarketLiveOutputs := ⟨some ⟨yesAt, yesTxout⟩, some ⟨noAt, noTxout⟩, none⟩
      CompiledBinaryMarket.new crypto verified.record.params = .ok compiled ∧
      verified.record.state = .trading 0 ∧
      verified.record.outpoints.map TrackedOutpoint.outpoint = [yesAt, noAt] ∧
      transaction.output[yes]? = some yesTxout ∧ transaction.output[no]? = some noTxout ∧
      validateLiveOutputs crypto compiled (.trading 0) live = .ok () ∧
      inferLiveRtSides crypto compiled.params (.trading 0) live = .ok ⟨some .a, some .a⟩ ∧
      CovenantLineage crypto compiled (.trading 0) live := by
  simp only [verifyBinaryMarketCreation, bind_eq_ok, mapError_eq_ok, pure_eq_ok] at hverified
  obtain ⟨params, -, compiled, hcompiled, yesOutput, hyes, noOutput, hno, _, -, _, -, _, -, rfl⟩ :=
    hverified
  obtain ⟨rfl, hvalid⟩ := CompiledBinaryMarket.new_eq_ok hcompiled
  obtain ⟨yesTxout, hyesAt, hyesHeld⟩ := (dormantOutput_rtAt .yes hyes).held_a hdistinct hvalid
  obtain ⟨noTxout, hnoAt, hnoHeld⟩ := (dormantOutput_rtAt .no hno).held_a hdistinct hvalid
  have hholds : HoldsOutputs crypto compiled.params .a (.trading 0)
      ⟨some ⟨⟨crypto.txid transaction, yesOutput⟩, yesTxout⟩,
        some ⟨⟨crypto.txid transaction, noOutput⟩, noTxout⟩, none⟩ :=
    .dormant (hyesHeld _) (hnoHeld _)
  have hlive := hholds.validateLiveOutputs hvalid
  exact ⟨compiled, yesOutput, noOutput, yesTxout, noTxout, hcompiled, rfl, rfl, hyesAt, hnoAt,
    hlive, hholds.inferLiveRtSides, .created hlive hholds.inferLiveRtSides⟩

end Creation

theorem sampleCrypto_sidesDistinct : sampleCrypto.SidesDistinct := by
  intro assetId leg commitments ha hb
  cases leg <;> exact absurd (ha.trans hb.symm) (by simp [sampleCrypto]; decide)

theorem sample_creation_starts_lineage : sampleCrypto.SidesDistinct ∧ ∃ verified,
    verifyBinaryMarketCreation sampleCrypto creationTransaction ⟨1, 0⟩ ⟨1, 101⟩ .elementsRegtest
      1 (some sampleParams) none = .ok verified ∧ verified.record.state = .trading 0 ∧
    verified.record.outpoints.map TrackedOutpoint.outpoint = [⟨11, 0⟩, ⟨11, 1⟩] ∧
    ∃ compiled live, CovenantLineage sampleCrypto compiled (.trading 0) live := by
  have hcreated : isOkAnd (verifyBinaryMarketCreation sampleCrypto creationTransaction ⟨1, 0⟩
      ⟨1, 101⟩ .elementsRegtest 1 (some sampleParams) none) (fun verified =>
        verified.record.outpoints.map TrackedOutpoint.outpoint = [⟨11, 0⟩, ⟨11, 1⟩]) = true := by
    decide +kernel
  obtain ⟨verified, hverified, houtpoints⟩ := isOkAnd_iff.mp hcreated
  obtain ⟨compiled, _, _, _, _, -, hstate, -, -, -, -, -, hlineage⟩ :=
    verified_creation_starts_lineage sampleCrypto_sidesDistinct hverified
  exact ⟨sampleCrypto_sidesDistinct, verified, hverified, hstate, of_decide_eq_true houtpoints,
    compiled, _, hlineage⟩

/-! ## Spends -/

theorem slotOutputs_injective : Function.Injective Covenant.slotOutputs := by
  refine List.map_injective_iff.mpr ?_
  intro place place' hsame
  obtain ⟨hindex, htag⟩ := Prod.mk.inj hsame
  exact Prod.ext hindex (BinaryMarketSlot.tag_injective htag)

theorem ContinuesAt.unique {transaction : Transaction} {places : List (ℕ × BinaryMarketSlot)}
    {found found' : List BinaryMarketContinuation}
    (hfound : ContinuesAt crypto transaction found places)
    (hfound' : ContinuesAt crypto transaction found' places) : found = found' := by
  induction places generalizing found found' with
  | nil => rw [continuesAt_nil.mp hfound, continuesAt_nil.mp hfound']
  | cons place rest ih =>
    obtain ⟨txout, found, hat, hrest, rfl⟩ := continuesAt_cons.mp hfound
    obtain ⟨txout', found', hat', hrest', rfl⟩ := continuesAt_cons.mp hfound'
    cases hat.symm.trans hat'
    rw [ih hrest hrest']

/-- A market which goes on trading keeps its outputs side by side. -/
theorem MarketTransition.siblings {transaction : Transaction} {side : RtSide} {inputBase : ℕ}
    {action : BinaryMarketCoordinatorAction} {after : BinaryMarketState}
    {places : List (ℕ × BinaryMarketSlot)} {found : List BinaryMarketContinuation}
    (hstep : MarketTransition crypto params transaction side inputBase state action after places)
    (hfound : ContinuesAt crypto transaction found places) :
    Siblings (.ofContinuations found) after := by
  have htrading : ∀ {n base}, base + 2 < 2 ^ 32 → ContinuesAt crypto transaction found
      [(base, .unresolvedYesRt), (base + 1, .unresolvedNoRt), (base + 2, .unresolvedCollateral)] →
      n ≠ 0 → Siblings (.ofContinuations found) (.trading n) := by
    intro n base hwindow hfound hn
    obtain ⟨n, rfl⟩ := Nat.exists_eq_succ_of_ne_zero hn
    simp only [continuesAt_cons, continuesAt_nil] at hfound
    obtain ⟨yes, _, -, ⟨no, _, -, ⟨locked, _, -, rfl, rfl⟩, rfl⟩, rfl⟩ := hfound
    exact siblings_trading.mpr ⟨hwindow, rfl, rfl⟩
  cases hstep with
  | issue hpairs _ _ _ _ hwindow => exact htrading hwindow hfound (by omega)
  | cancelPart _ hleft _ hwindow => exact htrading (by omega) hfound hleft
  | cancelAll =>
    simp only [continuesAt_cons, continuesAt_nil] at hfound
    obtain ⟨yes, _, -, ⟨no, _, -, rfl, rfl⟩, rfl⟩ := hfound
    exact siblings_dormant.mpr rfl
  | @resolve _ _ resolution | @resolveDormant _ resolution => cases resolution.outcome <;> trivial
  | expire => trivial
  | expireDormant => trivial
  | redeemPart hstate | redeemAll hstate => cases hstate <;> trivial

theorem CovenantLineage.spendChain (hvalid : compiled.Valid crypto)
    (hlineage : CovenantLineage crypto compiled state live) :
    SpendChain crypto compiled state live ∧
      ∀ n, state = .trading (n + 1) → Siblings live state := by
  obtain ⟨economics, hnew⟩ := hvalid.economics
  induction hlineage with
  | created hlive hsides => exact ⟨.created hlive hsides, by simp⟩
  | @spend state _ env inputBase _ _ _ hlineage hcontext hkeyless hsole haccepts hfound ih =>
    obtain ⟨hchain, hbefore⟩ := ih
    rcases (hchain.held_reachable hvalid hnew).1 with ⟨hfinished, rfl⟩ | ⟨side, hholds⟩
    · obtain ⟨_, _, hnone, -⟩ := haccepts.spends
      cases state with
      | trading => exact hfinished.elim
      | resolvedYes | resolvedNo | expired => cases hnone
    · have hgroup := haccepts.group hvalid hholds hsole hbefore
      obtain ⟨hsiblings, after, places', hstep, hplaces⟩ := (Covenant.main_head hvalid
        (hcontext.at inputBase) hkeyless hholds hgroup).mp haccepts.head
      cases slotOutputs_injective hplaces
      obtain ⟨result, hresult, rfl, hcontinues⟩ :=
        interpretAction_of_transition hvalid hholds hgroup hsiblings hstep
      have hspend := hchain.spend hresult
      rw [← hfound.unique hcontinues] at hspend
      have hafter : enforcedState compiled.params env.transaction _ _ _ = _ :=
        hstep.enforcedState hvalid.basePayout_ne
      rw [hafter]
      exact ⟨hspend, fun _ _ => hstep.siblings hfound⟩

end DeadcatNode
