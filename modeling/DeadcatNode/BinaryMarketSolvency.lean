import DeadcatNode.BinaryMarketEconomics

/-!
# Solvency of the binary-market state machine

The stored state keeps only a pair count or a collateral amount.  A ledger of
ghost counters, fed by the transitions the machine returns, records the tokens
outstanding on each side and the collateral locked and released so far.  The
solvency invariant relates the two after every successful run.

An expiry redemption names the side it burns but the machine cannot see how
many tokens of that side exist.  The counters are therefore integers, and a
run in which every redemption stays within the outstanding supply of its side
is singled out by `WithinSupply`.
-/

namespace DeadcatNode

open Checked

/-- Ghost counters of tokens and collateral. -/
structure SupplyLedger where
  yes : ℤ
  no : ℤ
  locked : ℕ
  released : ℕ
deriving DecidableEq

namespace SupplyLedger

def tokens (ledger : SupplyLedger) : BinaryOutcome → ℤ
  | .yes => ledger.yes
  | .no => ledger.no

def record (ledger : SupplyLedger) : BinaryMarketTransition → SupplyLedger
  | .issued pairs collateralLocked =>
    { ledger with
      yes := ledger.yes + pairs
      no := ledger.no + pairs
      locked := ledger.locked + collateralLocked }
  | .cancelled pairs collateralReleased _ =>
    { ledger with
      yes := ledger.yes - pairs
      no := ledger.no - pairs
      released := ledger.released + collateralReleased }
  | .resolved _ _ => ledger
  | .expired _ => ledger
  | .redeemed .yes tokens collateralReleased _ =>
    { ledger with
      yes := ledger.yes - tokens
      released := ledger.released + collateralReleased }
  | .redeemed .no tokens collateralReleased _ =>
    { ledger with
      no := ledger.no - tokens
      released := ledger.released + collateralReleased }

end SupplyLedger

structure MarketHistory where
  state : BinaryMarketState
  ledger : SupplyLedger
deriving DecidableEq

def MarketHistory.initial : MarketHistory where
  state := .trading 0
  ledger := ⟨0, 0, 0, 0⟩

def BinaryMarketState.Terminal : BinaryMarketState → Prop
  | .trading _ => False
  | _ => True

namespace BinaryMarketEconomics

variable (economics : BinaryMarketEconomics) {outcome : BinaryOutcome} {action : BinaryMarketAction}
  {unitPayout : ℕ} {applied : AppliedBinaryMarketTransition}

def stateCollateral : BinaryMarketState → ℕ
  | .trading pairs => economics.collateralPerPair * pairs
  | .resolvedYes collateral => collateral
  | .resolvedNo collateral => collateral
  | .expired collateral => collateral

def step (history : MarketHistory) (action : BinaryMarketAction) :
    Except BinaryMarketError MarketHistory := do
  let applied ← economics.apply history.state action
  return ⟨applied.newState, history.ledger.record applied.transition⟩

def run (actions : List BinaryMarketAction) : Except BinaryMarketError MarketHistory :=
  actions.foldlM economics.step .initial

/-- What the ledger and the stored state have to say to each other. -/
structure Solvent (history : MarketHistory) : Prop where
  backing :
    match history.state with
    | .trading pairs =>
      history.ledger.yes = pairs ∧ history.ledger.no = pairs
    | .resolvedYes collateral =>
      (collateral : ℤ) = economics.collateralPerPair * history.ledger.yes
    | .resolvedNo collateral =>
      (collateral : ℤ) = economics.collateralPerPair * history.ledger.no
    | .expired collateral =>
      (collateral : ℤ) = economics.basePayout * (history.ledger.yes + history.ledger.no)
  conserved :
    economics.stateCollateral history.state + history.ledger.released = history.ledger.locked
  bounded : economics.stateCollateral history.state < 2 ^ 64

/-- Tokens of a side which the collateral left can still pay for, whichever
holders present them. -/
def redeemable (history : MarketHistory) (outcome : BinaryOutcome) : ℤ :=
  match history.state, outcome with
  | .resolvedYes _, .yes => history.ledger.yes
  | .resolvedNo _, .no => history.ledger.no
  | .expired _, _ => history.ledger.yes + history.ledger.no
  | _, _ => 0

/-- Tokens of a side which are outstanding and carry a claim in this state. -/
def outstandingRedeemable (history : MarketHistory) (outcome : BinaryOutcome) : ℤ :=
  match history.state, outcome with
  | .resolvedYes _, .yes => history.ledger.yes
  | .resolvedNo _, .no => history.ledger.no
  | .expired _, _ => history.ledger.tokens outcome
  | _, _ => 0

/-- Every redemption of the sequence burns tokens which are outstanding when
it happens.  On a ledger of real assets this always holds. -/
def WithinSupply (actions : List BinaryMarketAction) : Prop :=
  ∀ earlier outcome (tokens : ℕ) later history,
    actions = earlier ++ .redeem outcome tokens :: later →
      economics.run earlier = .ok history → (tokens : ℤ) ≤ history.ledger.tokens outcome

/-! ## What one operation can do -/

inductive RedemptionTerms :
    BinaryMarketState → BinaryOutcome → ℕ → ℕ → (ℕ → BinaryMarketState) → Prop
  | resolvedYes (collateral : ℕ) : RedemptionTerms (.resolvedYes collateral) .yes collateral
        economics.collateralPerPair .resolvedYes
  | resolvedNo (collateral : ℕ) : RedemptionTerms (.resolvedNo collateral) .no collateral
        economics.collateralPerPair .resolvedNo
  | expired (collateral : ℕ) (outcome : BinaryOutcome) :
      RedemptionTerms (.expired collateral) outcome collateral economics.basePayout .expired

variable {economics} {state : BinaryMarketState} {withCollateral : ℕ → BinaryMarketState}

theorem redemptionTerms_eq_ok {collateral : ℕ} : economics.redemptionTerms state outcome =
        .ok (collateral, unitPayout, withCollateral) ↔
      economics.RedemptionTerms state outcome collateral unitPayout
        withCollateral := by
  constructor
  · intro hterms
    cases state with
    | trading pairs => simp [redemptionTerms] at hterms
    | resolvedYes amount =>
      simp [redemptionTerms, requireWinner] at hterms
      obtain ⟨rfl, rfl, rfl, rfl⟩ := hterms
      exact .resolvedYes _
    | resolvedNo amount =>
      simp [redemptionTerms, requireWinner] at hterms
      obtain ⟨rfl, rfl, rfl, rfl⟩ := hterms
      exact .resolvedNo _
    | expired amount =>
      simp [redemptionTerms] at hterms
      obtain ⟨rfl, rfl, rfl⟩ := hterms
      exact .expired _ _
  · intro hterms
    cases hterms <;> simp [redemptionTerms, requireWinner]

inductive Applied (state : BinaryMarketState) :
    BinaryMarketAction → AppliedBinaryMarketTransition → Prop
  | issue (outstanding pairs : ℕ) (hstate : state = .trading outstanding) (hpairs : pairs ≠ 0)
      (hbound : economics.collateralPerPair * (outstanding + pairs) < 2 ^ 64) :
      Applied state (.issue pairs)
        ⟨state, .trading (outstanding + pairs), .issued pairs (economics.collateralPerPair * pairs)⟩
  | cancel (remaining pairs : ℕ)
      (hstate : state = .trading (remaining + pairs)) (hpairs : pairs ≠ 0) :
      Applied state (.cancel pairs) ⟨state, .trading remaining,
          .cancelled pairs (economics.collateralPerPair * pairs) (remaining == 0)⟩
  | resolve (outstanding : ℕ) (outcome : BinaryOutcome) (hstate : state = .trading outstanding) :
      Applied state (.resolve outcome) ⟨state,
          match outcome with
          | .yes => .resolvedYes (economics.collateralPerPair * outstanding)
          | .no => .resolvedNo (economics.collateralPerPair * outstanding),
          .resolved outcome (economics.collateralPerPair * outstanding)⟩
  | expire (outstanding : ℕ) (hstate : state = .trading outstanding) : Applied state .expire
        ⟨state, .expired (economics.collateralPerPair * outstanding),
          .expired (economics.collateralPerPair * outstanding)⟩
  | redeem (outcome : BinaryOutcome) (tokens remaining unitPayout : ℕ)
      (withCollateral : ℕ → BinaryMarketState)
      (hterms : economics.RedemptionTerms state outcome
        (unitPayout * tokens + remaining) unitPayout withCollateral)
      (htokens : tokens ≠ 0) :
      Applied state (.redeem outcome tokens) ⟨state, withCollateral remaining,
          .redeemed outcome tokens (unitPayout * tokens) (remaining == 0)⟩

theorem applied_of_apply (happly : economics.apply state action = .ok applied) :
    economics.Applied state action applied := by
  simp only [apply, bind_eq_ok] at happly
  obtain ⟨_, -, hoperation⟩ := happly
  cases action with
  | issue pairs =>
    simp only [issue, requireNonzero, bind_eq_ok, require_eq_ok] at hoperation
    obtain ⟨_, hpairs, hoperation⟩ := hoperation
    cases state with
    | trading outstanding =>
      simp only [collateralForPairs, checkedPayout, bind_eq_ok, okOr_eq_ok,
        checkedAdd_eq_some, checkedMul_eq_some, pure_eq_ok] at hoperation
      obtain ⟨_, ⟨rfl, -⟩, _, ⟨rfl, hbound⟩, _, ⟨rfl, -⟩, rfl⟩ := hoperation
      rw [Nat.mul_comm pairs]
      exact .issue outstanding pairs rfl hpairs (by rwa [Nat.mul_comm])
    | _ => cases hoperation
  | cancel pairs =>
    simp only [cancel, requireNonzero, bind_eq_ok, require_eq_ok] at hoperation
    obtain ⟨_, hpairs, hoperation⟩ := hoperation
    cases state with
    | trading outstanding =>
      simp only [collateralForPairs, checkedPayout, bind_eq_ok, okOr_eq_ok,
        checkedSub_eq_some, checkedMul_eq_some, pure_eq_ok] at hoperation
      obtain ⟨remaining, ⟨-, houtstanding⟩, _, ⟨rfl, -⟩, _, ⟨rfl, -⟩, rfl⟩ := hoperation
      rw [Nat.mul_comm pairs]
      exact .cancel remaining pairs (by rw [houtstanding, Nat.add_comm]) hpairs
    | _ => cases hoperation
  | resolve outcome =>
    cases state with
    | trading outstanding =>
      simp only [resolve, collateralForPairs, checkedPayout, bind_eq_ok,
        okOr_eq_ok, checkedMul_eq_some, pure_eq_ok] at hoperation
      obtain ⟨_, ⟨rfl, -⟩, rfl⟩ := hoperation
      rw [Nat.mul_comm outstanding]
      exact .resolve outstanding outcome rfl
    | _ => cases hoperation
  | expire =>
    cases state with
    | trading outstanding =>
      simp only [expire, collateralForPairs, checkedPayout, bind_eq_ok,
        okOr_eq_ok, checkedMul_eq_some, pure_eq_ok] at hoperation
      obtain ⟨_, ⟨rfl, -⟩, rfl⟩ := hoperation
      rw [Nat.mul_comm outstanding]
      exact .expire outstanding rfl
    | _ => cases hoperation
  | redeem outcome tokens =>
    simp only [redeem, requireNonzero, checkedPayout, bind_eq_ok,
      require_eq_ok, okOr_eq_ok, checkedSub_eq_some, checkedMul_eq_some, pure_eq_ok] at hoperation
    obtain ⟨_, htokens, ⟨collateral, unitPayout, withCollateral⟩, hterms,
      _, ⟨rfl, -⟩, remaining, ⟨-, hcollateral⟩, rfl⟩ := hoperation
    dsimp only at hcollateral ⊢
    rw [redemptionTerms_eq_ok, hcollateral, Nat.mul_comm tokens] at hterms
    rw [Nat.mul_comm tokens]
    exact .redeem outcome tokens remaining unitPayout withCollateral hterms htokens

variable {history : MarketHistory} {next : MarketHistory}

theorem step_eq_ok : economics.step history action = .ok next ↔
      ∃ applied, economics.apply history.state action = .ok applied ∧
        ⟨applied.newState, history.ledger.record applied.transition⟩ = next := by
  simp only [step, bind_eq_ok, pure_eq_ok]

/-! ## The invariant along a run -/

theorem solvent_initial : economics.Solvent .initial where
  backing := by simp [MarketHistory.initial]
  conserved := by simp [MarketHistory.initial, stateCollateral]
  bounded := by simp [MarketHistory.initial, stateCollateral]

theorem Solvent.redeem (hsolvent : economics.Solvent history) {tokens remaining : ℕ}
    {complete : Bool}
    (hterms : economics.RedemptionTerms history.state outcome
      (unitPayout * tokens + remaining) unitPayout withCollateral) :
    economics.Solvent ⟨withCollateral remaining, history.ledger.record
        (.redeemed outcome tokens (unitPayout * tokens) complete)⟩ := by
  obtain ⟨state, ledger⟩ := history
  obtain ⟨hbacking, hconserved, hbounded⟩ := hsolvent
  generalize hcollateral : unitPayout * tokens + remaining = collateral at hterms
  cases hterms with
  | resolvedYes | resolvedNo =>
    simp only [stateCollateral] at hbacking hconserved hbounded
    refine ⟨?_, ?_, ?_⟩
    · simp only [SupplyLedger.record]
      rw [← hcollateral] at hbacking
      push_cast at hbacking
      linear_combination hbacking
    · simp only [stateCollateral, SupplyLedger.record]
      omega
    · simp only [stateCollateral]
      omega
  | expired =>
    simp only [stateCollateral] at hbacking hconserved hbounded
    rw [← hcollateral] at hbacking
    push_cast at hbacking
    cases outcome <;> refine ⟨?_, ?_, ?_⟩ <;> simp only [stateCollateral, SupplyLedger.record]
    · linear_combination hbacking
    · omega
    · omega
    · linear_combination hbacking
    · omega
    · omega

theorem Solvent.step
    (hsolvent : economics.Solvent history) (hstep : economics.step history action = .ok next) :
    economics.Solvent next := by
  obtain ⟨applied, happly, rfl⟩ := step_eq_ok.mp hstep
  obtain ⟨state, ledger⟩ := history
  cases applied_of_apply happly with
  | issue outstanding pairs hstate hpairs hbound =>
    dsimp only at hstate
    subst hstate
    obtain ⟨⟨hyes, hno⟩, hconserved, -⟩ := hsolvent
    refine ⟨?_, ?_, hbound⟩
    · simp only [SupplyLedger.record] at hyes hno ⊢
      push_cast
      omega
    · simp only [stateCollateral, SupplyLedger.record] at hconserved ⊢
      rw [Nat.mul_add]
      omega
  | cancel remaining pairs hstate hpairs =>
    dsimp only at hstate
    subst hstate
    obtain ⟨⟨hyes, hno⟩, hconserved, hbounded⟩ := hsolvent
    simp only [stateCollateral, Nat.mul_add] at hconserved hbounded
    refine ⟨?_, ?_, ?_⟩
    · simp only [SupplyLedger.record] at hyes hno ⊢
      push_cast at hyes hno
      omega
    · simp only [stateCollateral, SupplyLedger.record]
      omega
    · simp only [stateCollateral]
      omega
  | resolve outstanding outcome hstate =>
    dsimp only at hstate
    subst hstate
    obtain ⟨⟨hyes, hno⟩, hconserved, hbounded⟩ := hsolvent
    cases outcome with
    | yes =>
      refine ⟨?_, hconserved, hbounded⟩
      simp only [SupplyLedger.record] at hyes ⊢
      rw [hyes]
      push_cast
      rfl
    | no =>
      refine ⟨?_, hconserved, hbounded⟩
      simp only [SupplyLedger.record] at hno ⊢
      rw [hno]
      push_cast
      rfl
  | expire outstanding hstate =>
    dsimp only at hstate
    subst hstate
    obtain ⟨⟨hyes, hno⟩, hconserved, hbounded⟩ := hsolvent
    refine ⟨?_, hconserved, hbounded⟩
    simp only [SupplyLedger.record] at hyes hno ⊢
    rw [hyes, hno, economics.perPair]
    push_cast
    ring
  | redeem outcome tokens remaining unitPayout withCollateral hterms htokens =>
    exact hsolvent.redeem hterms

theorem solvent_of_run {actions : List BinaryMarketAction}
    (hrun : economics.run actions = .ok history) : economics.Solvent history :=
  foldlM_invariant economics.Solvent
    (fun _ _ _ hsolvent hstep => hsolvent.step hstep) actions solvent_initial hrun

theorem terminal_step
    (hterminal : history.state.Terminal) (hstep : economics.step history action = .ok next) :
    next.state.Terminal := by
  obtain ⟨applied, happly, rfl⟩ := step_eq_ok.mp hstep
  obtain ⟨state, ledger⟩ := history
  cases applied_of_apply happly with
  | redeem outcome tokens remaining unitPayout withCollateral hterms htokens =>
    dsimp only at hterms
    generalize unitPayout * tokens + remaining = collateral at hterms
    cases hterms <;> trivial
  | _ => simp_all [BinaryMarketState.Terminal]

theorem terminal_of_run_append {earlier later : List BinaryMarketAction}
    {middle : MarketHistory} (hmiddle : economics.run earlier = .ok middle)
    (hterminal : middle.state.Terminal) (hrun : economics.run (earlier ++ later) = .ok history) :
    history.state.Terminal := by
  have hlater : later.foldlM economics.step middle = .ok history := by
    unfold run at hrun hmiddle
    rw [List.foldlM_append, hmiddle] at hrun
    exact hrun
  exact foldlM_invariant (fun h => h.state.Terminal)
    (fun _ _ _ hs hstep => terminal_step hs hstep) later hterminal hlater

/-! ## Redemptions that are paid -/

theorem Solvent.collateral_eq_redeemable (hsolvent : economics.Solvent history) {collateral : ℕ}
    (hterms : economics.RedemptionTerms history.state outcome collateral
      unitPayout withCollateral) :
    (collateral : ℤ) = unitPayout * redeemable history outcome ∧ collateral < 2 ^ 64 := by
  obtain ⟨state, ledger⟩ := history
  obtain ⟨hbacking, -, hbounded⟩ := hsolvent
  cases hterms <;> exact ⟨hbacking, hbounded⟩

theorem RedemptionTerms.unitPayout_pos {collateral : ℕ}
    (hterms : economics.RedemptionTerms state outcome collateral unitPayout
      withCollateral) : 0 < unitPayout := by
  cases hterms with
  | resolvedYes | resolvedNo => exact economics.collateralPerPair_pos
  | expired => exact economics.basePayout_pos

theorem Solvent.validateState (hsolvent : economics.Solvent history) :
    economics.validateState history.state = .ok () := by
  have hdivisible : ∀ (collateral unitPayout : ℕ) (tokens : ℤ),
      (collateral : ℤ) = unitPayout * tokens → collateral % unitPayout = 0 := by
    intro collateral unitPayout tokens htokens
    have hdvd : (unitPayout : ℤ) ∣ collateral := ⟨tokens, htokens⟩
    exact Nat.mod_eq_zero_of_dvd (Int.natCast_dvd_natCast.mp hdvd)
  obtain ⟨state, ledger⟩ := history
  obtain ⟨hbacking, -, hbounded⟩ := hsolvent
  cases state with
  | trading pairs =>
    simp only [BinaryMarketEconomics.validateState, collateralForPairs,
      checkedPayout, bind_eq_ok, okOr_eq_ok, checkedMul_eq_some, pure_eq_ok]
    refine ⟨_, ⟨rfl, ?_⟩, trivial⟩
    rw [Nat.mul_comm]
    exact hbounded
  | resolvedYes | resolvedNo | expired =>
    simp only [BinaryMarketEconomics.validateState, require_eq_ok]
    exact hdivisible _ _ _ hbacking

theorem exists_redemptionTerms_or_redeemable_eq_zero
    (economics : BinaryMarketEconomics) (history : MarketHistory) (outcome : BinaryOutcome) :
    (∃ collateral unitPayout withCollateral,
      economics.RedemptionTerms history.state outcome collateral unitPayout
        withCollateral) ∨ redeemable history outcome = 0 := by
  obtain ⟨state, ledger⟩ := history
  cases state with
  | trading pairs => exact .inr rfl
  | resolvedYes collateral =>
    cases outcome with
    | yes => exact .inl ⟨_, _, _, .resolvedYes collateral⟩
    | no => exact .inr rfl
  | resolvedNo collateral =>
    cases outcome with
    | yes => exact .inr rfl
    | no => exact .inl ⟨_, _, _, .resolvedNo collateral⟩
  | expired collateral => exact .inl ⟨_, _, _, .expired collateral outcome⟩

/-- A redemption of a positive amount is paid exactly when the collateral
left covers it. -/
theorem Solvent.redeem_succeeds_iff (hsolvent : economics.Solvent history)
    (outcome : BinaryOutcome) {tokens : ℕ} (htokens : 1 ≤ tokens) :
    (∃ applied, economics.apply history.state (.redeem outcome tokens) = .ok applied) ↔
      (tokens : ℤ) ≤ redeemable history outcome := by
  constructor
  · rintro ⟨applied, happly⟩
    cases applied_of_apply happly with
    | redeem _ _ remaining unitPayout withCollateral hterms _ =>
      have hpos := hterms.unitPayout_pos
      obtain ⟨hamount, -⟩ := hsolvent.collateral_eq_redeemable hterms
      push_cast at hamount
      by_contra hlt
      have hstrict : (unitPayout : ℤ) * redeemable history outcome < unitPayout * tokens :=
        mul_lt_mul_of_pos_left (by omega) (by exact_mod_cast hpos)
      omega
  · intro hle
    rcases economics.exists_redemptionTerms_or_redeemable_eq_zero history outcome with
      ⟨collateral, unitPayout, withCollateral, hterms⟩ | hzero
    · obtain ⟨hamount, hbound⟩ := hsolvent.collateral_eq_redeemable hterms
      have hpaid : tokens * unitPayout ≤ collateral := by
        have hmul : (unitPayout : ℤ) * tokens ≤ unitPayout * redeemable history outcome :=
          mul_le_mul_of_nonneg_left hle (by positivity)
        have hcast : ((tokens * unitPayout : ℕ) : ℤ) ≤ collateral := by
          push_cast
          rw [hamount, mul_comm]
          exact hmul
        exact_mod_cast hcast
      simp only [apply, bind_eq_ok, BinaryMarketEconomics.redeem,
        requireNonzero, require_eq_ok, checkedPayout, okOr_eq_ok,
        checkedMul_eq_some, checkedSub_eq_some, pure_eq_ok]
      exact ⟨_, (), hsolvent.validateState, (), by omega, _,
        redemptionTerms_eq_ok.mpr hterms, _, ⟨rfl, by dsimp only; omega⟩,
        collateral - tokens * unitPayout, ⟨hpaid, by dsimp only; omega⟩, rfl⟩
    · omega

theorem complete_iff_of_redeem {tokens : ℕ}
    (happly : economics.apply state (.redeem outcome tokens) = .ok applied) :
    ∃ collateralReleased complete, applied.transition =
          .redeemed outcome tokens collateralReleased complete ∧
        (complete = true ↔ economics.stateCollateral applied.newState = 0) := by
  cases applied_of_apply happly with
  | redeem _ _ remaining unitPayout withCollateral hterms _ =>
    refine ⟨_, _, rfl, ?_⟩
    generalize unitPayout * tokens + remaining = collateral at hterms
    cases hterms <;> simp [stateCollateral]

theorem WithinSupply.of_append {earlier later : List BinaryMarketAction}
    (hwithin : economics.WithinSupply (earlier ++ later)) : economics.WithinSupply earlier := by
  intro first outcome tokens rest history hsplit hrun
  refine hwithin first outcome tokens (rest ++ later) history ?_ hrun
  rw [hsplit, List.append_assoc, List.cons_append]

theorem tokens_nonneg_of_withinSupply {actions : List BinaryMarketAction}
    (hwithin : economics.WithinSupply actions) (hrun : economics.run actions = .ok history) :
    0 ≤ history.ledger.yes ∧ 0 ≤ history.ledger.no := by
  -- The induction is on the last operation: its supply bound speaks about
  -- the run before it.
  induction actions using List.reverseRecOn generalizing history with
  | nil =>
    simp only [run, List.foldlM_nil, pure_eq_ok] at hrun
    subst hrun
    simp [MarketHistory.initial]
  | append_singleton earlier action ih =>
    have hsplit : ∃ middle, economics.run earlier = .ok middle ∧
        economics.step middle action = .ok history := by
      simpa [run, List.foldlM_append] using hrun
    obtain ⟨middle, hmiddle, hstep⟩ := hsplit
    have hsigns := ih hwithin.of_append hmiddle
    have hsolvent := solvent_of_run hmiddle
    obtain ⟨applied, happly, rfl⟩ := step_eq_ok.mp hstep
    cases applied_of_apply happly with
    | issue outstanding pairs hstate hpairs hbound =>
      simp only [SupplyLedger.record]
      omega
    | cancel remaining pairs hstate hpairs =>
      have hbacking := hsolvent.backing
      rw [hstate] at hbacking
      simp only [SupplyLedger.record] at hbacking ⊢
      push_cast at hbacking
      omega
    | resolve | expire => exact hsigns
    | redeem outcome tokens remaining unitPayout withCollateral hterms htokens =>
      have hburn := hwithin earlier outcome tokens [] middle rfl hmiddle
      cases outcome <;> simp only [SupplyLedger.record, SupplyLedger.tokens] at hburn ⊢ <;> omega

theorem outstandingRedeemable_le_redeemable (outcome : BinaryOutcome)
    (hyes : 0 ≤ history.ledger.yes) (hno : 0 ≤ history.ledger.no) :
    outstandingRedeemable history outcome ≤ redeemable history outcome := by
  obtain ⟨state, ledger⟩ := history
  cases state <;> cases outcome <;>
    simp_all [outstandingRedeemable, redeemable, SupplyLedger.tokens]

/-- Solvency of every run.  The ledger backs the stored state, no amount
leaves the range of a word, the collateral released never exceeds what was
locked, a terminal state is never left for trading, and a redemption is paid
exactly when the collateral covers it.  While burns stay within the supply of
their side this includes every redemption of outstanding tokens. -/
theorem run_solvent {basePayout : ℕ} (hnew : new basePayout = .ok economics)
    {actions : List BinaryMarketAction} {history : MarketHistory}
    (hrun : economics.run actions = .ok history) :
    economics.basePayout = basePayout ∧
    economics.Solvent history ∧
    history.ledger.released ≤ history.ledger.locked ∧
    (∀ earlier later middle, actions = earlier ++ later →
      economics.run earlier = .ok middle → middle.state.Terminal → history.state.Terminal) ∧
    (∀ outcome (tokens : ℕ), 1 ≤ tokens →
      ((∃ applied, economics.apply history.state (.redeem outcome tokens) = .ok applied) ↔
        (tokens : ℤ) ≤ redeemable history outcome)) ∧
    (economics.WithinSupply actions → ∀ outcome (tokens : ℕ), 1 ≤ tokens →
        (tokens : ℤ) ≤ outstandingRedeemable history outcome →
          ∃ applied, economics.apply history.state (.redeem outcome tokens) = .ok applied) ∧
    (∀ outcome tokens applied,
      economics.apply history.state (.redeem outcome tokens) = .ok applied →
        ∃ collateralReleased complete, applied.transition =
              .redeemed outcome tokens collateralReleased complete ∧
            (complete = true ↔ economics.stateCollateral applied.newState = 0)) := by
  have hsolvent := solvent_of_run hrun
  refine ⟨new_eq_ok_basePayout hnew, hsolvent, ?_, ?_, ?_, ?_, ?_⟩
  · have hconserved := hsolvent.conserved
    omega
  · intro earlier later middle hsplit hmiddle hterminal
    subst hsplit
    exact terminal_of_run_append hmiddle hterminal hrun
  · intro outcome tokens htokens
    exact hsolvent.redeem_succeeds_iff outcome htokens
  · intro hwithin outcome tokens htokens houtstanding
    have hsigns := tokens_nonneg_of_withinSupply hwithin hrun
    have hle := outstandingRedeemable_le_redeemable outcome hsigns.1 hsigns.2
    exact (hsolvent.redeem_succeeds_iff outcome htokens).mpr (houtstanding.trans hle)
  · intro outcome tokens applied happly
    exact complete_iff_of_redeem happly

theorem run_solvent_after_redemption : ∃ economics history, new 100 = .ok economics ∧
      economics.run [.issue 3, .cancel 1, .expire, .redeem .no 2] =
        .ok history ∧ history.state = .expired 200 ∧ economics.Solvent history := by
  have hnew : new 100 = .ok ⟨100, 200, by decide, rfl⟩ := rfl
  have hrun : run ⟨100, 200, by decide, rfl⟩
      [.issue 3, .cancel 1, .expire, .redeem .no 2] = .ok ⟨.expired 200, ⟨2, 0, 600, 400⟩⟩ := rfl
  exact ⟨_, _, hnew, hrun, rfl, (run_solvent hnew hrun).2.1⟩

/-- One pair is issued and expires; two NO tokens are then presented, one of
which never existed.  The holder of the YES token is refused. -/
theorem outstanding_redemption_refused : ∃ economics history, new 100 = .ok economics ∧
      economics.run [.issue 1, .expire, .redeem .no 2] = .ok history ∧
      outstandingRedeemable history .yes = 1 ∧
      economics.apply history.state (.redeem .yes 1) =
        .error (.redemptionExceedsCollateral 100 0) :=
  ⟨⟨100, 200, by decide, rfl⟩, ⟨.expired 0, ⟨1, -1, 200, 200⟩⟩, rfl, rfl, rfl, rfl⟩

end BinaryMarketEconomics

end DeadcatNode
