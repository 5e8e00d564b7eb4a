import DeadcatNode.BinaryMarketSpend

/-!
# Transitions of a market on the chain

What a market spend is, without saying how it is checked: the outputs a market
holds are spent side by side, and the transaction continues, burns and pays as
one of the transitions below describes.  The interpreter and the covenant
program are both compared with this relation.
-/

namespace DeadcatNode

open Checked

/-! ## Parts of a spending transaction -/

section

variable (crypto : MarketCrypto) (params : BinaryMarketParams) (transaction : Transaction)

def rtAssetId : RtLeg → AssetId
  | .yes => params.yesReissuanceTokenId
  | .no => params.noReissuanceTokenId

def tokenAssetId (yes : Bool) : AssetId :=
  if yes then params.yesTokenAssetId else params.noTokenAssetId

def ExplicitAt (index : ℕ) (script : Script) (asset : AssetId) (amount : ℕ) : Prop :=
  ∃ txout, transaction.output[index]? = some txout ∧
    txout.scriptPubkey = script ∧ explicitAssetValue txout = some (asset, amount)

def RtAt (index : ℕ) (script : Script) (leg : RtLeg) (side : RtSide) : Prop :=
  ∃ txout, transaction.output[index]? = some txout ∧ txout.scriptPubkey = script ∧
    crypto.commitments (rtAssetId params leg) (rtFactors leg side) = some (txout.asset, txout.value)

def RtPairAt (index : ℕ) (yesScript noScript : Script) (side : RtSide) : Prop :=
  index + 1 < 2 ^ 32 ∧ RtAt crypto params transaction index yesScript .yes side ∧
    RtAt crypto params transaction (index + 1) noScript .no side

abbrev SlotPairAt (index : ℕ) (yesSlot noSlot : BinaryMarketSlot) (side : RtSide) : Prop :=
  RtPairAt crypto params transaction index (crypto.slotScript params yesSlot)
    (crypto.slotScript params noSlot) side

abbrev LockedAt (index : ℕ) (slot : BinaryMarketSlot) (amount : ℕ) : Prop :=
  ExplicitAt transaction index (crypto.slotScript params slot) params.collateralAssetId amount

def NoIssuanceAt (index : ℕ) : Prop :=
  ∃ input, transaction.input[index]? = some input ∧ input.hasIssuance = false

/-- An input which reissues an outcome token with the reissuance token it
spends. -/
def ReissuedAt (index : ℕ) (asset : AssetId) (leg : RtLeg) (side : RtSide) (amount : ℕ) : Prop :=
  ∃ input, transaction.input[index]? = some input ∧
    crypto.issuanceIds input = (asset, rtAssetId params leg) ∧
    input.assetIssuance.assetBlindingNonce = (rtFactors leg side).abf ∧
    input.assetIssuance.amount = .explicit amount ∧ input.assetIssuance.inflationKeys = .null

def ExpiryLocked : Prop :=
  transaction.lockTime < 500000000 ∧ params.expiryHeight ≤ transaction.lockTime ∧
    (transaction.input.any fun input => input.sequence ≠ 0xffffffff) = true

def OracleSigned (outcomeYes : Bool) (signature : ℕ) : Prop :=
  crypto.verifySchnorr params.oraclePublicKey
    (crypto.oracleMessage params.yesTokenAssetId params.noTokenAssetId
      (if outcomeYes then .yes else .no)) signature = true

end

/-! ## The outputs a market holds -/

/-- The slots of the outputs a market holds, in the order in which they are
spent. -/
def groupSlots : BinaryMarketState → List BinaryMarketSlot
  | .trading 0 => [.dormantYesRt, .dormantNoRt]
  | .trading (_ + 1) =>
    [.unresolvedYesRt, .unresolvedNoRt, .unresolvedCollateral]
  | .resolvedYes _ => [.resolvedYesCollateral]
  | .resolvedNo _ => [.resolvedNoCollateral]
  | .expired _ => [.expiredCollateral]

abbrev SpendsAt (live : BinaryMarketLiveOutputs) (transaction : Transaction)
    (slot : BinaryMarketSlot) (index : ℕ) : Prop :=
  ∃ tracked input, live.forSlot slot = some tracked ∧ index < 2 ^ 32 ∧
    transaction.input[index]? = some input ∧ input.previousOutput = tracked.outpoint

def SpendsGroup (live : BinaryMarketLiveOutputs) (transaction : Transaction)
    (inputBase : ℕ) (state : BinaryMarketState) : Prop :=
  ∀ entry ∈ (groupSlots state).zipIdx, SpendsAt live transaction entry.1 (inputBase + entry.2)

/-- How the outputs of a market lie in the transaction which made them. -/
def Siblings (live : BinaryMarketLiveOutputs) : BinaryMarketState → Prop
  | .trading 0 => ∀ yes no, live.yesRt = some yes → live.noRt = some no →
      yes.outpoint.txid = no.outpoint.txid
  | .trading (_ + 1) => ∀ yes no collateral, live.yesRt = some yes →
      live.noRt = some no → live.collateral = some collateral → yes.outpoint.vout + 2 < 2 ^ 32 ∧
          no.outpoint = ⟨yes.outpoint.txid, yes.outpoint.vout + 1⟩ ∧
          collateral.outpoint = ⟨yes.outpoint.txid, yes.outpoint.vout + 2⟩
  | _ => True

@[simp] theorem siblings_dormant {yes no : TrackedContractOutput}
    {collateral : Option TrackedContractOutput} :
    Siblings ⟨some yes, some no, collateral⟩ (.trading 0) ↔
      yes.outpoint.txid = no.outpoint.txid := by
  simp [Siblings]

@[simp] theorem siblings_trading {n : ℕ} {yes no collateral : TrackedContractOutput} :
    Siblings ⟨some yes, some no, some collateral⟩ (.trading (n + 1)) ↔
      yes.outpoint.vout + 2 < 2 ^ 32 ∧ no.outpoint = ⟨yes.outpoint.txid, yes.outpoint.vout + 1⟩ ∧
        collateral.outpoint = ⟨yes.outpoint.txid, yes.outpoint.vout + 2⟩ := by
  simp [Siblings]

/-- A settled state, with the side its tokens redeem on, the payout per token,
the collateral, its slot and the state with another collateral. -/
inductive Redeemable (basePayout : ℕ) : BinaryMarketState → Bool → ℕ → ℕ →
    BinaryMarketSlot → (ℕ → BinaryMarketState) → Prop where
  | resolvedYes (collateral : ℕ) :
      Redeemable basePayout (.resolvedYes collateral) true (2 * basePayout)
        collateral .resolvedYesCollateral .resolvedYes
  | resolvedNo (collateral : ℕ) :
      Redeemable basePayout (.resolvedNo collateral) false (2 * basePayout)
        collateral .resolvedNoCollateral .resolvedNo
  | expired (collateral : ℕ) (yes : Bool) :
      Redeemable basePayout (.expired collateral) yes basePayout collateral
        .expiredCollateral .expired

section

variable (crypto : MarketCrypto) (params : BinaryMarketParams)

structure RtHeld (leg : RtLeg) (slot : BinaryMarketSlot) (side : RtSide)
    (tracked : TrackedContractOutput) : Prop where
  script : tracked.txout.scriptPubkey = crypto.slotScript params slot
  side : inferSide crypto leg (rtAssetId params leg)
    (tracked.txout.asset, tracked.txout.value) = some side

structure CollateralHeld (slot : BinaryMarketSlot) (amount : ℕ)
    (tracked : TrackedContractOutput) : Prop where
  script : tracked.txout.scriptPubkey = crypto.slotScript params slot
  amount : explicitAssetValue tracked.txout = some (params.collateralAssetId, amount)

/-- A market in a state holds exactly these outputs. -/
inductive HoldsOutputs (side : RtSide) : BinaryMarketState → BinaryMarketLiveOutputs → Prop where
  | dormant {yes no : TrackedContractOutput}
      (hyes : RtHeld crypto params .yes .dormantYesRt side yes)
      (hno : RtHeld crypto params .no .dormantNoRt side no) :
      HoldsOutputs side (.trading 0) ⟨some yes, some no, none⟩
  | trading {n : ℕ} {yes no collateral : TrackedContractOutput}
      (hbound : (n + 1) * (2 * params.basePayout) < 2 ^ 64)
      (hyes : RtHeld crypto params .yes .unresolvedYesRt side yes)
      (hno : RtHeld crypto params .no .unresolvedNoRt side no)
      (hcollateral : CollateralHeld crypto params .unresolvedCollateral
        ((n + 1) * (2 * params.basePayout)) collateral) :
      HoldsOutputs side (.trading (n + 1)) ⟨some yes, some no, some collateral⟩
  | settled {state : BinaryMarketState} {yes : Bool} {unit amount : ℕ}
      {slot : BinaryMarketSlot} {next : ℕ → BinaryMarketState} {collateral : TrackedContractOutput}
      (hstate : Redeemable params.basePayout state yes unit amount slot next)
      (hwhole : amount % unit = 0)
      (hcollateral : CollateralHeld crypto params slot amount collateral) :
      HoldsOutputs side state ⟨none, none, some collateral⟩

end

/-! ## Transitions -/

def resolvedState (outcome : BinaryOutcome) (collateral : ℕ) : BinaryMarketState :=
  match outcome with
  | .yes => .resolvedYes collateral
  | .no => .resolvedNo collateral

def resolvedSlot : BinaryOutcome → BinaryMarketSlot
  | .yes => .resolvedYesCollateral
  | .no => .resolvedNoCollateral

section

variable (crypto : MarketCrypto) (params : BinaryMarketParams)
  (transaction : Transaction) (side : RtSide) (inputBase : ℕ)

/-- A spend leads from a state by an action to a state, whose outputs stand at
the listed places.  `side` is the side of the reissuance tokens before the
spend, and every spend moves them to the other one. -/
inductive MarketTransition : BinaryMarketState →
    BinaryMarketCoordinatorAction → BinaryMarketState → List (ℕ × BinaryMarketSlot) → Prop where
  | issue {n pairs base : ℕ} (hpairs : pairs ≠ 0)
      (hbound : (n + pairs) * (2 * params.basePayout) < 2 ^ 64)
      (hyes : ReissuedAt crypto params transaction inputBase params.yesTokenAssetId .yes side pairs)
      (hno : ReissuedAt crypto params transaction (inputBase + 1)
        params.noTokenAssetId .no side pairs)
      (hcollateral : n ≠ 0 → NoIssuanceAt transaction (inputBase + 2)) (hwindow : base + 2 < 2 ^ 32)
      (htokens : SlotPairAt crypto params transaction base .unresolvedYesRt .unresolvedNoRt
        side.flip)
      (hlocked : LockedAt crypto params transaction (base + 2) .unresolvedCollateral
        ((n + pairs) * (2 * params.basePayout))) :
      MarketTransition (.trading n) (.issue base) (.trading (n + pairs))
        [(base, .unresolvedYesRt), (base + 1, .unresolvedNoRt), (base + 2, .unresolvedCollateral)]
  | cancelPart {n pairs base : ℕ} (hpairs : pairs ≠ 0) (hleft : n ≠ 0)
      (hquiet : ∀ i ≤ 2, NoIssuanceAt transaction (inputBase + i)) (hwindow : base + 4 < 2 ^ 32)
      (htokens : SlotPairAt crypto params transaction base .unresolvedYesRt .unresolvedNoRt
        side.flip)
      (hlocked : LockedAt crypto params transaction (base + 2) .unresolvedCollateral
        (n * (2 * params.basePayout)))
      (hyes : ExplicitAt transaction (base + 3) burnScript params.yesTokenAssetId pairs)
      (hno : ExplicitAt transaction (base + 4) burnScript params.noTokenAssetId pairs) :
      MarketTransition (.trading (n + pairs)) (.cancel base) (.trading n)
        [(base, .unresolvedYesRt), (base + 1, .unresolvedNoRt), (base + 2, .unresolvedCollateral)]
  | cancelAll {pairs base : ℕ} (hpairs : pairs ≠ 0)
      (hquiet : ∀ i ≤ 2, NoIssuanceAt transaction (inputBase + i)) (hwindow : base + 3 < 2 ^ 32)
      (htokens : SlotPairAt crypto params transaction base .dormantYesRt .dormantNoRt side.flip)
      (hyes : ExplicitAt transaction (base + 2) burnScript params.yesTokenAssetId pairs)
      (hno : ExplicitAt transaction (base + 3) burnScript params.noTokenAssetId pairs) :
      MarketTransition (.trading pairs) (.cancel base) (.trading 0)
        [(base, .dormantYesRt), (base + 1, .dormantNoRt)]
  | resolve {n base : ℕ} {resolution : BinaryMarketResolution} (hn : n ≠ 0)
      (hquiet : ∀ i ≤ 2, NoIssuanceAt transaction (inputBase + i))
      (hsigned : OracleSigned crypto params
        (decide (resolution.outcome = .yes)) resolution.signature)
      (hwindow : base + 2 < 2 ^ 32)
      (hburned : RtPairAt crypto params transaction base burnScript burnScript side.flip)
      (hlocked : LockedAt crypto params transaction (base + 2) (resolvedSlot resolution.outcome)
        (n * (2 * params.basePayout))) :
      MarketTransition (.trading n) (.resolve base resolution)
        (resolvedState resolution.outcome (n * (2 * params.basePayout)))
        [(base + 2, resolvedSlot resolution.outcome)]
  | resolveDormant {base : ℕ} {resolution : BinaryMarketResolution}
      (hquiet : ∀ i ≤ 1, NoIssuanceAt transaction (inputBase + i))
      (hsigned : OracleSigned crypto params
        (decide (resolution.outcome = .yes)) resolution.signature)
      (hburned : RtPairAt crypto params transaction base burnScript burnScript side.flip) :
      MarketTransition (.trading 0) (.resolve base resolution)
        (resolvedState resolution.outcome 0) []
  | expire {n base : ℕ} (hn : n ≠ 0) (hquiet : ∀ i ≤ 2, NoIssuanceAt transaction (inputBase + i))
      (hexpired : ExpiryLocked params transaction) (hwindow : base + 2 < 2 ^ 32)
      (hburned : RtPairAt crypto params transaction base burnScript burnScript side.flip)
      (hlocked : LockedAt crypto params transaction (base + 2) .expiredCollateral
        (n * (2 * params.basePayout))) :
      MarketTransition (.trading n) (.expire base) (.expired (n * (2 * params.basePayout)))
        [(base + 2, .expiredCollateral)]
  | expireDormant {base : ℕ} (hquiet : ∀ i ≤ 1, NoIssuanceAt transaction (inputBase + i))
      (hexpired : ExpiryLocked params transaction)
      (hburned : RtPairAt crypto params transaction base burnScript burnScript side.flip) :
      MarketTransition (.trading 0) (.expire base) (.expired 0) []
  | redeemPart {state : BinaryMarketState} {yes : Bool}
      {unit collateral remaining tokens base : ℕ} {slot : BinaryMarketSlot}
      {next : ℕ → BinaryMarketState}
      (hstate : Redeemable params.basePayout state yes unit collateral slot next)
      (htokens : tokens ≠ 0) (hleft : remaining ≠ 0)
      (hpaid : tokens * unit + remaining = collateral) (hbound : tokens * unit < 2 ^ 64)
      (hquiet : NoIssuanceAt transaction inputBase) (hwindow : base + 1 < 2 ^ 32)
      (hlocked : LockedAt crypto params transaction base slot remaining)
      (hburned : ExplicitAt transaction (base + 1) burnScript (tokenAssetId params yes) tokens) :
      MarketTransition state (.redeem base) (next remaining) [(base, slot)]
  | redeemAll {state : BinaryMarketState} {yes : Bool}
      {unit collateral tokens base : ℕ} {slot : BinaryMarketSlot} {next : ℕ → BinaryMarketState}
      (hstate : Redeemable params.basePayout state yes unit collateral slot next)
      (htokens : tokens ≠ 0) (hpaid : tokens * unit = collateral) (hbound : tokens * unit < 2 ^ 64)
      (hquiet : NoIssuanceAt transaction inputBase)
      (hburned : ExplicitAt transaction base burnScript (tokenAssetId params yes) tokens) :
      MarketTransition state (.redeem base) (next 0) []

theorem MarketTransition.not_redeem_trading {crypto : MarketCrypto}
    {params : BinaryMarketParams} {transaction : Transaction} {side : RtSide}
    {inputBase n base : ℕ} {after : BinaryMarketState} {places : List (ℕ × BinaryMarketSlot)}
    (hstep : MarketTransition crypto params transaction side inputBase
      (.trading n) (.redeem base) after places) : False := by
  cases hstep with
  | redeemPart hstate | redeemAll hstate => cases hstate

end

end DeadcatNode
