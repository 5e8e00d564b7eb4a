import DeadcatNode.ReservationRuns

/-!
# Fresh wallet inventory

The gate between wallet discovery and quoting.  A complete scan of the wallet is
imported into the book and published; an output is quoteable while it is part of
the latest scan, the scan is recent and the book has not allocated the output.
-/

namespace DeadcatNode

open Checked

structure InventoryFreshnessPolicy where
  maxSnapshotAgeMillis : ℕ
  maxInventoryOutputs : ℕ
  age_pos : 0 < maxSnapshotAgeMillis
  outputs_pos : 0 < maxInventoryOutputs

/-- Complete provider-wallet inventory at one scan anchor.  The commitment is a
hash of the other fields, computed by the wallet boundary. -/
structure InventorySnapshot where
  identity : ProviderIdentity
  anchor : WalletScanAnchor
  outputs : List WalletOwnedOutput
  commitment : InventorySnapshotCommitment
  sorted : Sorted outputs

structure PublishedSnapshot where
  token : EligibilityToken
  anchor : WalletScanAnchor
  outputs : List WalletOwnedOutput
  sorted : Sorted outputs

structure CoordinatorState where
  generation : ℕ := 0
  latest : Option PublishedSnapshot := none

/-- Discovery, freshness or allocation errors.  The errors of a wallet are its
own. -/
inductive InventoryCoordinatorError (E : Type) where
  | source (error : E)
  | provider (error : ProviderError)
  | identityMismatch (expected actual : ProviderIdentity)
  | snapshotTooLarge (maximum actual : ℕ)
  | generationOverflow
  | noPublishedSnapshot
  | snapshotObservedInFuture (observedAt now : UnixMillis)
  | snapshotStale (observedAt now : UnixMillis) (maximumAge : ℕ)
  | snapshotSuperseded (requested current : EligibilityToken)
  | outpointNotInEligibleView (outpoint : OutPoint)
deriving DecidableEq

/-! ## Scanning -/

section Scan

variable {E : Type}

def InventorySnapshot.admission (snapshot : InventorySnapshot)
    (identity : ProviderIdentity) (policy : InventoryFreshnessPolicy)
    (state : CoordinatorState) : Except (InventoryCoordinatorError E) ℕ := do
  require (snapshot.identity = identity) (.identityMismatch identity snapshot.identity)
  require (snapshot.outputs.length ≤ policy.maxInventoryOutputs)
    (.snapshotTooLarge policy.maxInventoryOutputs snapshot.outputs.length)
  okOr (checkedAdd 64 state.generation 1) .generationOverflow

def InventorySnapshot.publish (snapshot : InventorySnapshot) (generation : ℕ)
    (now : UnixMillis) : PublishedSnapshot where
  token := ⟨generation, snapshot.commitment, now⟩
  anchor := snapshot.anchor
  outputs := snapshot.outputs
  sorted := snapshot.sorted

end Scan

/-! ## Eligible outputs -/

section Eligibility

variable {E : Type} (crypto : ProviderCrypto)

/-- Commitment to the exact eligible outpoints and wallet bindings. -/
def eligibleCommitment (outputs : List WalletOwnedOutput) : ℕ :=
  crypto.eligibleInventory (outputs.map fun output => (output.outpoint, output.binding))

namespace ReservationBook

variable (book : ReservationBook)

def publishedView (durable : List InventoryView) (output : WalletOwnedOutput) :
    Option InventoryView :=
  durable.find? fun view => view.item.outpoint = output.outpoint

def checkPublished (durable : List InventoryView) (output : WalletOwnedOutput) :
    Except ProviderError Unit := do
  let view ← okOr (publishedView durable output) (corrupt (.publishedOutputMissing output.outpoint))
  require (view.item = output.item.val) (corrupt (.publishedOutputDisagrees output.outpoint))

def isAvailable (durable : List InventoryView) (output : WalletOwnedOutput) : Bool :=
  match publishedView durable output with
  | some view => view.state = .available
  | none => false

def eligibleFromSnapshot (latest : PublishedSnapshot) : Except ProviderError EligibleInventory := do
  let (durable, allocationRevision) ← book.inventoryStateFor
    (latest.outputs.map WalletOwnedOutput.outpoint)
  latest.outputs.forM (checkPublished durable)
  let outputs := latest.outputs.filter (isAvailable durable)
  return {
    token := latest.token
    anchor := latest.anchor
    allocationRevision
    eligibleCommitment := eligibleCommitment crypto outputs
    outputs
    sorted := latest.sorted.filter _ }

def checkClock (now : UnixMillis) : Except ProviderError Unit :=
  match book.lastObservedTime with
  | some previous => require (¬now < previous) (.clockRegression previous now)
  | none => .ok ()

def requireFresh (policy : InventoryFreshnessPolicy) (state : CoordinatorState)
    (now : UnixMillis) : Except (InventoryCoordinatorError E) PublishedSnapshot :=
  do
    (book.checkClock now).mapError .provider
    let latest ← okOr state.latest .noPublishedSnapshot
    require (¬now < latest.token.observedAt) (.snapshotObservedInFuture latest.token.observedAt now)
    require (now - latest.token.observedAt < policy.maxSnapshotAgeMillis)
      (.snapshotStale latest.token.observedAt now policy.maxSnapshotAgeMillis)
    return latest

end ReservationBook

/-! ## Checking a draft -/

def FirmQuoteDraft.checkQuotedInput (draft : FirmQuoteDraft)
    (current : EligibleInventory) (input : QuotedProviderInput) :
    Except (InventoryCoordinatorError E) Unit := do
  let output ← okOr (current.outputs.find? fun output => output.outpoint = input.outpoint)
    (.outpointNotInEligibleView input.outpoint)
  require (output.asset = draft.selectedAsset ∧
    output.txout = input.witnessUtxo ∧ output.binding = input.inventoryBinding)
    (.provider (.firmQuoteInventoryMismatch input.outpoint))

def FirmQuoteDraft.checkCurrent (draft : FirmQuoteDraft)
    (latest : PublishedSnapshot) (current : EligibleInventory) :
    Except (InventoryCoordinatorError E) Unit := do
  require (¬(draft.snapshot.allocationRevision ≠ current.allocationRevision ∨
    draft.snapshot.eligibleCommitment ≠ current.eligibleCommitment))
    (.provider .eligibleInventoryChanged)
  require (¬(draft.snapshot.anchor ≠ latest.anchor ∨
    draft.snapshot.commitment ≠ latest.token.snapshot)) (.provider .firmQuoteSnapshotMismatch)
  draft.contribution.inputs.forM (draft.checkQuotedInput current)

end Eligibility

/-! ## What is eligible -/

namespace ReservationBook

variable {crypto : ProviderCrypto} {book : ReservationBook}

def ViewOf (book : ReservationBook) (outpoint : OutPoint) (view : InventoryView) : Prop :=
  book.inventory[outpoint]? = some view.item ∧ view.item.Valid ∧
    view.item.outpoint = outpoint ∧ view.state = book.allocationState outpoint

theorem inventoryStateFor_eq_ok {outpoints : List OutPoint} {result : List InventoryView × ℕ} :
    book.inventoryStateFor outpoints = .ok result ↔ outpoints.Pairwise (· < ·) ∧
      List.Forall₂ book.ViewOf outpoints result.1 ∧ result.2 = book.allocationRevision := by
  simp only [inventoryStateFor, bind_eq_ok, require_eq_ok, mapM_eq_ok, okOr_eq_ok, pure_eq_ok]
  constructor
  · rintro ⟨-, hsorted, views, hviews, rfl⟩
    refine ⟨hsorted, hviews.imp ?_, rfl⟩
    rintro outpoint view ⟨item, hrow, -, hvalid, -, houtpoint, rfl⟩
    exact ⟨hrow, hvalid, houtpoint, rfl⟩
  · rintro ⟨hsorted, hviews, hrevision⟩
    refine ⟨(), hsorted, result.1, hviews.imp ?_, Prod.ext rfl hrevision.symm⟩
    rintro outpoint view ⟨hrow, hvalid, houtpoint, hstate⟩
    refine ⟨view.item, hrow, (), hvalid, (), houtpoint, ?_⟩
    rw [← hstate]

/-- The outputs of a scan have durable records with their metadata. -/
def Published (book : ReservationBook) (latest : PublishedSnapshot) : Prop :=
  ∀ output ∈ latest.outputs, book.inventory[output.outpoint]? = some output.item.val

def availableOutputs (book : ReservationBook) (latest : PublishedSnapshot) :
    List WalletOwnedOutput :=
  latest.outputs.filter fun output => book.allocationState output.outpoint = .available

def eligibleView (crypto : ProviderCrypto) (book : ReservationBook)
    (latest : PublishedSnapshot) : EligibleInventory where
  token := latest.token
  anchor := latest.anchor
  allocationRevision := book.allocationRevision
  eligibleCommitment := eligibleCommitment crypto (book.availableOutputs latest)
  outputs := book.availableOutputs latest
  sorted := latest.sorted.filter _

theorem publishedView_eq {outpoints : List OutPoint} {durable : List InventoryView}
    (hdurable : List.Forall₂ book.ViewOf outpoints durable)
    {output : WalletOwnedOutput} (hmem : output.outpoint ∈ outpoints) :
    ∃ item, book.inventory[output.outpoint]? = some item ∧
      publishedView durable output = some ⟨item, book.allocationState output.outpoint⟩ := by
  induction hdurable with
  | nil => cases hmem
  | @cons outpoint view outpoints durable hview hrest ih =>
    obtain ⟨hrow, -, houtpoint, hstate⟩ := hview
    unfold publishedView
    by_cases hcase : view.item.outpoint = output.outpoint
    · rw [List.find?_cons_of_pos (by simpa using hcase)]
      rw [← hcase, houtpoint, hrow, ← hstate]
      exact ⟨view.item, rfl, rfl⟩
    · rw [List.find?_cons_of_neg (by simpa using hcase)]
      rcases List.mem_cons.mp hmem with heq | hmem
      · exact absurd (houtpoint.trans heq.symm) hcase
      · exact ih hmem

theorem eligibleFromSnapshot_eq_ok {latest : PublishedSnapshot} {eligible : EligibleInventory} :
    book.eligibleFromSnapshot crypto latest = .ok eligible ↔
      book.Published latest ∧ eligible = book.eligibleView crypto latest := by
  -- Reading the views of a scan: metadata and availability of its outputs.
  have hread : ∀ durable, List.Forall₂ book.ViewOf
        (latest.outputs.map WalletOwnedOutput.outpoint) durable →
      (latest.outputs.forM (checkPublished durable) = .ok () ↔ book.Published latest) ∧
      latest.outputs.filter (isAvailable durable) = book.availableOutputs latest := by
    intro durable hdurable
    have hview := fun output (hmem : output ∈ latest.outputs) =>
      publishedView_eq hdurable (List.mem_map_of_mem hmem)
    constructor
    · simp only [forM_eq_ok, Published, checkPublished, bind_eq_ok, okOr_eq_ok, require_eq_ok]
      apply forall₂_congr
      intro output hmem
      obtain ⟨item, hrow, hfind⟩ := hview output hmem
      simp [hrow, hfind]
    · apply List.filter_congr
      intro output hmem
      obtain ⟨item, hrow, hfind⟩ := hview output hmem
      simp [isAvailable, hfind]
  simp only [eligibleFromSnapshot, bind_eq_ok, inventoryStateFor_eq_ok, pure_eq_ok, Prod.exists]
  constructor
  · rintro ⟨durable, revision, ⟨hsorted, hdurable, rfl⟩, _, hchecked, rfl⟩
    obtain ⟨hpublished, hfilter⟩ := hread durable hdurable
    refine ⟨hpublished.mp hchecked, ?_⟩
    simp only [hfilter, eligibleView]
  · rintro ⟨hpublished, rfl⟩
    -- Every output of the scan has a view, since its record is stored.
    let durable : List InventoryView := latest.outputs.map fun output =>
      ⟨output.item.val, book.allocationState output.outpoint⟩
    have hdurable : List.Forall₂ book.ViewOf
        (latest.outputs.map WalletOwnedOutput.outpoint) durable := by
      rw [List.forall₂_map_left_iff, List.forall₂_map_right_iff, List.forall₂_same]
      intro output hmem
      exact ⟨hpublished output hmem, output.item.property, rfl, rfl⟩
    obtain ⟨hchecked, hfilter⟩ := hread durable hdurable
    refine ⟨durable, book.allocationRevision,
      ⟨List.pairwise_map.mpr latest.sorted, hdurable, rfl⟩, (), hchecked.mpr hpublished, ?_⟩
    simp only [hfilter, eligibleView]

theorem checkClock_eq_ok {now : UnixMillis} {u : Unit} : book.checkClock now = .ok u ↔
      ∀ previous, book.lastObservedTime = some previous → previous ≤ now := by
  unfold checkClock
  cases book.lastObservedTime with
  | none => simp
  | some previous => simp [require_eq_ok]

theorem requireFresh_eq_ok {E : Type} {policy : InventoryFreshnessPolicy}
    {state : CoordinatorState} {now : UnixMillis} {latest : PublishedSnapshot} :
    book.requireFresh (E := E) policy state now = .ok latest ↔
      (∀ previous, book.lastObservedTime = some previous → previous ≤ now) ∧
      state.latest = some latest ∧ latest.token.observedAt ≤ now ∧
      now - latest.token.observedAt < policy.maxSnapshotAgeMillis := by
  simp only [requireFresh, bind_eq_ok, mapError_eq_ok, checkClock_eq_ok, okOr_eq_ok,
    require_eq_ok, pure_eq_ok, not_lt]
  constructor
  · rintro ⟨-, hclock, other, hlatest, -, hfuture, -, hage, rfl⟩
    exact ⟨hclock, hlatest, hfuture, hage⟩
  · rintro ⟨hclock, hlatest, hfuture, hage⟩
    exact ⟨(), hclock, latest, hlatest, (), hfuture, (), hage, rfl⟩

end ReservationBook

end DeadcatNode
