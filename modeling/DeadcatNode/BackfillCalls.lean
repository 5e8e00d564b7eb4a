import DeadcatNode.NodeStoreProvenance
import DeadcatNode.SettledBranch
import DeadcatNode.SyncCoordinator

/-!
# Backfills run by the coordinator

Registrations may be committed between any two actions of the coordinator, its
source may change the branch at any time, and a call may be given up anywhere.
In all these runs the cursors of a batch stand at the block which is replayed
for them, and at or below their pins.
-/

namespace DeadcatNode

open Checked

/-! ## Pending backfills -/

section

variable {hashing : Hashing} {allowed : Store → StoreOperation → Prop}
  {store : Store} {pending : List BackfillProgress}

theorem Store.ReachableBy.mem_pendingBackfills (hstore : store.ReachableBy hashing allowed)
    (hpending : store.pendingBackfills = .ok pending) {item : BackfillProgress} :
    item ∈ pending ↔ ∃ c record, (store.index.view c).record = some record ∧
      record.syncState.isCatchingUp = true ∧ (store.index.view c).cursor = some item := by
  have hkeyed : ∀ (c : ContractId) (record : ContractRecord),
      store.chain.contractTables.contracts[c]? = some record →
        record.contractId = c := hstore.wellFormed.placed.exact.keyed
  simp only [pendingBackfills, bind_eq_ok, pure_eq_ok] at hpending
  obtain ⟨unsorted, hread, rfl⟩ := hpending
  rw [List.mem_insertionSort, mem_of_mapM_eq_ok hread]
  simp only [List.mem_filter, okOr_eq_ok, Prod.exists]
  constructor
  · rintro ⟨c, record, ⟨hrow, hcatching⟩, hcursor⟩
    have hrecord := Std.ExtTreeMap.mem_toList_iff_getElem?_eq_some.mp hrow
    rw [hkeyed c record hrecord] at hcursor
    exact ⟨c, record, hrecord, hcatching, hcursor⟩
  · rintro ⟨c, record, hrecord, hcatching, hcursor⟩
    refine ⟨c, record, ⟨Std.ExtTreeMap.mem_toList_iff_getElem?_eq_some.mpr hrecord, hcatching⟩, ?_⟩
    rw [hkeyed c record hrecord]
    exact hcursor

theorem Store.pendingBackfills_head_le {first : BackfillProgress} {rest : List BackfillProgress}
    (hpending : store.pendingBackfills = .ok (first :: rest)) :
    ∀ item ∈ first :: rest, first.nextPosition.blockHeight ≤ item.nextPosition.blockHeight := by
  simp only [pendingBackfills, bind_eq_ok, pure_eq_ok] at hpending
  obtain ⟨unsorted, -, hsorted⟩ := hpending
  have hpairwise := List.pairwise_insertionSort (fun item item' : BackfillProgress =>
      toLex (item.nextPosition, item.contractId) ≤
        toLex (item'.nextPosition, item'.contractId)) unsorted
  rw [hsorted, List.pairwise_cons] at hpairwise
  intro item hitem
  rcases List.mem_cons.mp hitem with rfl | hitem
  · exact le_rfl
  · have hle : first.nextPosition ≤ item.nextPosition := by
      rcases Prod.Lex.le_iff.mp (hpairwise.1 item hitem) with hlt | ⟨heq, -⟩
      · exact hlt.le
      · exact heq.le
    rcases (ChainPosition.le_iff _ _).mp hle with hlt | ⟨heq, -⟩
    · exact hlt.le
    · exact heq.le

theorem Store.ReachableBy.settled_of_pending (hstore : store.ReachableBy hashing allowed)
    (hpending : store.pendingBackfills = .ok pending)
    (habove : ∀ item ∈ pending, store.chain.tip.height < item.nextPosition.blockHeight) :
    store.index.Settled := by
  intro c record cursor hrecord hcatching hcursor
  exact .inl (habove cursor ((hstore.mem_pendingBackfills hpending).mpr
    ⟨c, record, hrecord, hcatching, hcursor⟩))

theorem Store.ReachableBy.height_of_canonicalAnchor
    (hstore : store.ReachableBy hashing allowed) {h : ℕ} {anchor : ChainAnchor}
    (hanchor : store.chain.canonicalAnchor h = some anchor) : anchor.height = h := by
  have hheights := hstore.anchored.heights
  unfold ChainTables.canonicalAnchor at hanchor
  split at hanchor
  · cases hanchor
  split at hanchor
  · next htip =>
    cases hanchor
    exact htip.symm
  split at hanchor
  · next block hblock =>
    cases hanchor
    exact hheights h block hblock
  split at hanchor
  · cases hanchor
  · obtain ⟨block, -, rfl⟩ := Option.map_eq_some_iff.mp hanchor
    rfl

end

/-! ## Rules for the code of the coordinator -/

/-- Every contract of a batch has a cursor which stands at the block and at or
below its pin. -/
def Store.Positioned (store : Store) (contractIds : List ContractId) (delta : BlockDelta) : Prop :=
  ∀ c ∈ contractIds, ∃ item, store.chain.backfillProgress[c]? = some item ∧
    item.nextPosition.blockHeight = delta.anchor.height ∧
    delta.anchor.height ≤ item.pinnedTip.height

/-! ## Where a position can be refused -/

def StoreError.IsPositionMismatch : StoreError → Prop
  | .backfillPositionMismatch _ _ _ => True
  | _ => False

variable {store : Store}

section

variable {hashing : Hashing}

abbrev KeepsPosition {α : Type} (x : Except StoreError α) : Prop :=
  Avoids StoreError.IsPositionMismatch x

theorem ContractRecord.validate_keepsPosition (record : ContractRecord) :
    KeepsPosition (record.validate hashing) := by
  unfold ContractRecord.validate
  exact avoids_check not_false (avoids_require fun _ => not_false)

theorem validateCreatedContract_keepsPosition (delta : ChainTxDelta)
    (seen : List ContractId) (contract : ContractRecord) :
    KeepsPosition (validateCreatedContract hashing delta seen contract) := by
  unfold validateCreatedContract
  repeat refine avoids_check not_false ?_
  exact contract.validate_keepsPosition.bind fun _ _ => avoids_ok _

theorem validateTransactionShape_keepsPosition (delta : BlockDelta) (transaction : ChainTxDelta) :
    KeepsPosition (validateTransactionShape hashing delta transaction) := by
  have hleg : ∀ seen update, KeepsPosition (validateUpdateLeg seen update) :=
    fun seen update => avoids_check not_false (avoids_ok _)
  unfold validateTransactionShape
  repeat refine avoids_check not_false ?_
  refine (avoids_foldlM (validateCreatedContract_keepsPosition transaction)
    _ _).bind fun seen _ => ?_
  exact (avoids_foldlM hleg _ _).bind fun _ _ => avoids_ok ()

theorem validateBlockShape_keepsPosition (delta : BlockDelta) :
    KeepsPosition (validateBlockShape hashing delta) := by
  unfold validateBlockShape
  repeat refine avoids_check not_false ?_
  refine (avoids_forM fun transaction _ =>
    validateTransactionShape_keepsPosition delta transaction).bind
    fun _ _ => ?_
  refine avoids_check not_false ?_
  exact avoids_forM fun _ _ => avoids_require fun _ => not_false

theorem validateTrackedInputs_keepsPosition (tables : ContractTables) (delta : ChainTxDelta) :
    KeepsPosition (validateTrackedInputs tables delta) := by
  unfold validateTrackedInputs
  repeat refine avoids_check not_false ?_
  refine avoids_forM fun outpoint _ => ?_
  split
  · exact avoids_require fun _ => not_false
  · exact avoids_error not_false
  · exact avoids_error not_false
  · exact avoids_ok ()

theorem ContractTables.insertContract_keepsPosition (tables : ContractTables)
    (record : ContractRecord) : KeepsPosition (tables.insertContract hashing record) := by
  have hclaim : ∀ tables tracked,
      KeepsPosition (insertOutpoint record.contractId tables tracked) := by
    intro tables tracked
    unfold insertOutpoint
    split
    · exact avoids_error not_false
    · exact avoids_ok _
  unfold insertContract
  refine record.validate_keepsPosition.bind fun _ _ => ?_
  refine avoids_check not_false ?_
  exact (avoids_foldlM hclaim _ _).bind fun _ _ => avoids_ok _

theorem EventJournal.appendEvent_keepsPosition (journal : EventJournal)
    (event : StoredEvent) : KeepsPosition (journal.appendEvent event) := by
  unfold appendEvent
  exact (avoids_okOr not_false).bind fun _ _ => avoids_ok _

theorem ChainTables.applyTransition_keepsPosition (delta : ChainTxDelta)
    (chain : ChainTables) (before : ContractRecord) (update : StateUpdate) :
    KeepsPosition (chain.applyTransition hashing delta before update) := by
  unfold applyTransition
  repeat refine avoids_check not_false ?_
  refine (ContractRecord.validate_keepsPosition _).bind fun _ _ => ?_
  refine (ContractTables.insertContract_keepsPosition _ _).bind fun _ _ => ?_
  exact avoids_check not_false (avoids_ok _)

namespace BackfillWrite

theorem applyUpdate_keepsPosition (targets : List ContractId)
    (delta : ChainTxDelta) (write : BackfillWrite) (update : StateUpdate) :
    KeepsPosition (applyUpdate hashing targets delta write update) := by
  unfold applyUpdate
  refine avoids_check not_false ?_
  refine (avoids_okOr not_false).bind fun before _ => ?_
  refine avoids_check not_false ?_
  refine (ChainTables.applyTransition_keepsPosition _ _ _ _).bind fun _ _ => ?_
  exact avoids_check not_false (avoids_ok _)

theorem storeTransaction_keepsPosition (delta : ChainTxDelta)
    (affected : List ContractId) (write : BackfillWrite) :
    KeepsPosition (storeTransaction delta affected write) := by
  unfold storeTransaction
  split
  · exact avoids_check not_false (avoids_ok _)
  · exact avoids_check not_false (avoids_ok _)

theorem applyBackfillTransaction_keepsPosition (targets : List ContractId)
    (write : BackfillWrite) (delta : ChainTxDelta) :
    KeepsPosition (applyBackfillTransaction hashing targets write delta) := by
  unfold applyBackfillTransaction
  refine (validateTrackedInputs_keepsPosition _ delta).bind fun _ _ => ?_
  refine avoids_check not_false ?_
  exact (avoids_foldlM (applyUpdate_keepsPosition targets delta) _ _).bind
    fun _ _ => storeTransaction_keepsPosition _ _ _

theorem advanceTarget_keepsPosition (delta : BlockDelta) (nextHeight : ℕ)
    (write : BackfillWrite) (item : BackfillProgress) :
    KeepsPosition (advanceTarget hashing delta nextHeight write item) := by
  unfold advanceTarget
  refine (avoids_okOr not_false).bind fun before _ => ?_
  refine avoids_check not_false ?_
  refine (ContractTables.insertContract_keepsPosition _ _).bind fun _ _ => ?_
  refine (EventJournal.appendEvent_keepsPosition _ _).bind fun journal _ => ?_
  dsimp only
  split
  · exact (EventJournal.appendEvent_keepsPosition _ _).bind fun _ _ => avoids_ok _
  · exact avoids_ok _

end BackfillWrite

theorem verifyBackfillBlock_keepsPosition (chain : ChainTables)
    (delta : BlockDelta) : KeepsPosition (verifyBackfillBlock chain delta) := by
  unfold verifyBackfillBlock
  refine avoids_check not_false ?_
  split
  · exact avoids_require fun _ => not_false
  · exact avoids_ok ()

theorem validateBackfillTargets_keepsPosition (delta : BlockDelta)
    (progress : List BackfillProgress) :
    KeepsPosition (validateBackfillTargets delta progress) := by
  have hupdate : ∀ transaction update,
      KeepsPosition (validateBackfillUpdate progress transaction update) := by
    intro transaction update
    unfold validateBackfillUpdate
    split
    · exact avoids_error not_false
    · exact avoids_require fun _ => not_false
  unfold validateBackfillTargets
  refine avoids_check not_false ?_
  refine avoids_forM fun transaction _ => ?_
  repeat refine avoids_check not_false ?_
  exact avoids_forM fun update _ => hupdate transaction update

theorem readyTargets_keepsPosition (chain : ChainTables)
    (targets : List ContractId) : KeepsPosition (readyTargets chain targets) :=
  avoids_foldlM (fun _ _ => (avoids_okOr not_false).bind fun _ _ => avoids_ok _) targets []

theorem Store.Positioned.keepsPosition {contractIds : List ContractId} {delta : BlockDelta}
    (hpositioned : store.Positioned contractIds delta) :
    KeepsPosition (store.applyBackfillBlock hashing contractIds delta) := by
  unfold Store.applyBackfillBlock
  refine (validateBlockShape_keepsPosition delta).bind fun _ _ => ?_
  repeat refine avoids_check not_false ?_
  refine (verifyBackfillBlock_keepsPosition _ delta).bind fun _ _ => ?_
  refine (avoids_mapM (fun _ => avoids_okOr not_false) _).bind fun progress hprogress => ?_
  split
  · exact (readyTargets_keepsPosition _ _).bind fun _ _ => avoids_ok _
  -- The check itself: what was read is what `Positioned` speaks of.
  refine Avoids.bind ?_ fun _ _ => ?_
  · refine avoids_forM fun item hitem => avoids_require fun hfails => ?_
    obtain ⟨c, hc, hread⟩ := (mem_of_mapM_eq_ok hprogress).mp hitem
    obtain ⟨item', hitem', hheight, hpin⟩ := hpositioned c (mem_sortDedupContracts.mp hc)
    have hsame : item' = item := Option.some.inj (hitem'.symm.trans (okOr_eq_ok.mp hread))
    exact absurd (hsame ▸ ⟨hheight, hpin⟩) hfails
  refine (validateBackfillTargets_keepsPosition delta progress).bind fun _ _ => ?_
  refine (avoids_foldlM (BackfillWrite.applyBackfillTransaction_keepsPosition _)
    _ _).bind fun write _ => ?_
  refine (avoids_okOr not_false).bind fun nextHeight _ => ?_
  exact (avoids_foldlM (BackfillWrite.advanceTarget_keepsPosition delta _)
    _ _).bind fun _ _ => avoids_ok _

end

namespace SyncCoordinator

variable {ε : Type} (coordinator : SyncCoordinator ε) {operation : StoreOperation}

/-- The coordinator adds blocks only while no late contract would be left
behind, and replays a block only for contracts which stand at it. -/
def Allowed (store : Store) : StoreOperation → Prop
  | .applyBlock _ => store.index.Settled
  | .applyBackfillBlock contractIds delta => store.Positioned contractIds delta
  | _ => True

/-- What the code ensures while others register contracts. -/
abbrev Ensures {α : Type} (program : coordinator.Code α)
    (post : α → Store → Prop) (store : Store) : Prop :=
  Shared.Program.Ensures
    (Relation.ReflTransGen (LateRegistration coordinator.hashing)) Allowed program post store

/-- Registrations by others do not make the assertion false. -/
def Stable (P : Store → Prop) : Prop :=
  ∀ store next, P store → LateRegistration coordinator.hashing store next → P next

/-- From states which meet the assertion the program ends in such states. -/
def Keeps (P : Store → Prop) {α : Type} (program : coordinator.Code α) : Prop :=
  ∀ store, P store → coordinator.Ensures program (fun _ => P) store

variable {coordinator} {P : Store → Prop} {α β : Type}

theorem Stable.later (hstable : coordinator.Stable P) {next : Store}
    (hstore : P store) (hlater : Relation.ReflTransGen
      (LateRegistration coordinator.hashing) store next) : P next := by
  induction hlater with
  | refl => exact hstore
  | tail _ hstep ih => exact hstable _ _ ih hstep

theorem ensures_seq {program : coordinator.Code α}
    {f : α → coordinator.Code β} {middle : α → Store → Prop}
    {post : β → Store → Prop} (hfirst : coordinator.Ensures program middle store)
    (hrest : ∀ a s, middle a s → coordinator.Ensures (f a) post s) :
    coordinator.Ensures (program >>= f) post store :=
  Shared.Program.Ensures.bind (fun _ => .refl) (hfirst.mono hrest)

theorem ensures_pure (hstable : coordinator.Stable P) {a : α}
    {post : α → Store → Prop} (hstore : P store) (hpost : ∀ s, P s → post a s) :
    coordinator.Ensures (pure a) post store :=
  fun _ hlater => hpost _ (hstable.later hstore hlater)

theorem ensures_read (hstable : coordinator.Stable P) {f : Store → α}
    {post : α → Store → Prop} (hstore : P store)
    (hpost : ∀ s s', P s → Relation.ReflTransGen
      (LateRegistration coordinator.hashing) s s' → post (f s) s') :
    coordinator.Ensures (coordinator.read f) post store :=
  fun _ hlater _ hlater' => hpost _ _ (hstable.later hstore hlater) hlater'

theorem ensures_tryRead (hstable : coordinator.Stable P)
    {f : Store → Except (SyncError ε) α} {post : α → Store → Prop} (hstore : P store)
    (hpost : ∀ s a s', P s → f s = .ok a → Relation.ReflTransGen
      (LateRegistration coordinator.hashing) s s' → post a s') :
    coordinator.Ensures (coordinator.tryRead f) post store := by
  intro s hlater
  exact Shared.Program.ensures_ofExcept fun a hok s' hlater' =>
    hpost s a s' (hstable.later hstore hlater) hok hlater'

theorem ensures_commit (hstable : coordinator.Stable P) {post : operation.Report → Store → Prop}
    (hstore : P store) (hallowed : ∀ s, P s → Allowed s operation)
    (hpost : ∀ s report s' s'', P s → s.commit coordinator.hashing operation = .ok (report, s') →
      Relation.ReflTransGen (LateRegistration coordinator.hashing) s' s'' →
        post report s'') : coordinator.Ensures (coordinator.commit operation) post store := by
  intro s hlater
  have hs := hstable.later hstore hlater
  refine ⟨hallowed s hs, ?_⟩
  intro report s' hperform s'' hlater'
  exact hpost s report s' s'' hs (mapError_eq_ok.mp hperform) hlater'

section Keeps

variable (hstable : coordinator.Stable P)

include hstable

theorem keeps_pure (a : α) : coordinator.Keeps P (pure a) :=
  fun _ hstore _ hlater => hstable.later hstore hlater

theorem keeps_ask (query : OutsideQuery) : coordinator.Keeps P (Shared.Program.ask query .done) :=
  fun _ hstore _ _ hlater => hstable.later hstore hlater

theorem keeps_read (f : Store → α) : coordinator.Keeps P (coordinator.read f) :=
  fun _ hstore => ensures_read hstable hstore fun _ _ hs hlater => hstable.later hs hlater

theorem keeps_tryRead (f : Store → Except (SyncError ε) α) :
    coordinator.Keeps P (coordinator.tryRead f) :=
  fun _ hstore => ensures_tryRead hstable hstore fun _ _ _ hs _ hlater => hstable.later hs hlater

end Keeps

theorem Keeps.bind {program : coordinator.Code α} {f : α → coordinator.Code β}
    (hfirst : coordinator.Keeps P program) (hrest : ∀ a, coordinator.Keeps P (f a)) :
    coordinator.Keeps P (program >>= f) :=
  fun store hstore => ensures_seq (hfirst store hstore) fun a s hs => hrest a s hs

section Quiet

variable (hstable : coordinator.Stable P)

include hstable

theorem keeps_pinStillCanonical (pinnedTip : ChainAnchor) :
    coordinator.Keeps P (coordinator.pinStillCanonical pinnedTip) := by
  refine Keeps.bind (keeps_ask hstable .tip) fun currentTip => ?_
  split
  · exact keeps_pure hstable _
  · exact Keeps.bind (keeps_ask hstable _) fun hash => keeps_pure hstable _

theorem keeps_blockStillPinned (block pinnedTip : ChainAnchor) :
    coordinator.Keeps P (coordinator.blockStillPinned block pinnedTip) := by
  refine Keeps.bind (keeps_ask hstable _) fun hash => ?_
  split
  · exact keeps_pinStillCanonical hstable pinnedTip
  · exact keeps_pure hstable _

theorem ensures_acceptBlock (anchor pinnedTip : ChainAnchor)
    (expectedPrev : Option BlockHash) (block : Block) (hstore : P store) :
    coordinator.Ensures (coordinator.acceptBlock anchor pinnedTip expectedPrev block)
      (fun result s => P s ∧ ∀ fetched, result = .block fetched → fetched.anchor = anchor)
      store := by
  unfold acceptBlock
  split
  · trivial
  · refine ensures_seq (keeps_blockStillPinned hstable anchor pinnedTip store
      hstore) fun pinned s hs => ?_
    refine ensures_pure hstable hs fun s' hs' => ⟨hs', ?_⟩
    intro fetched hfetched
    split at hfetched
    · cases hfetched
      rfl
    · cases hfetched

theorem keeps_fetchBlock (height : ℕ) (pinnedTip : ChainAnchor)
    (expectedPrev : BlockHash) : coordinator.Keeps P
      (coordinator.fetchBlock height pinnedTip expectedPrev) := by
  refine Keeps.bind (keeps_ask hstable _) fun hash => ?_
  refine Keeps.bind (keeps_ask hstable _) fun block store hstore => ?_
  exact (ensures_acceptBlock hstable _ _ _ _ hstore).mono fun _ _ h => h.1

theorem ensures_fetchCanonicalBackfillBlock (anchor indexedTip : ChainAnchor)
    (expectedPrev : Option BlockHash) (hstore : P store) :
    coordinator.Ensures (coordinator.fetchCanonicalBackfillBlock anchor indexedTip expectedPrev)
      (fun result s => P s ∧ ∀ fetched, result = .block fetched → fetched.anchor = anchor)
      store := by
  refine ensures_seq (keeps_ask hstable _ store hstore) fun hash s hs => ?_
  split
  · refine ensures_pure hstable hs fun s' hs' => ⟨hs', ?_⟩
    intro fetched hfetched
    cases hfetched
  · refine ensures_seq (keeps_ask hstable _ s hs) fun block s' hs' => ?_
    exact ensures_acceptBlock hstable _ _ _ _ hs'

theorem keeps_canonicalAnchor (height : ℕ) :
    coordinator.Keeps P (coordinator.canonicalAnchor height) :=
  keeps_tryRead hstable _

theorem keeps_expectedPrev (height : ℕ) :
    coordinator.Keeps P (coordinator.expectedPrev height) := by
  unfold expectedPrev
  split
  · exact keeps_pure hstable _
  · exact Keeps.bind (keeps_canonicalAnchor hstable _) fun _ => keeps_pure hstable _

theorem keeps_findCommon (indexedTip pinnedTip : ChainAnchor)
    (depths : List ℕ) : coordinator.Keeps P
      (coordinator.findCommon indexedTip pinnedTip depths) := by
  induction depths with
  | nil => exact keeps_pure hstable _
  | cons depth depths ih =>
    unfold findCommon
    split
    · exact keeps_pure hstable _
    · split
      · exact ih
      · refine Keeps.bind (keeps_canonicalAnchor hstable _) fun indexed => ?_
        refine Keeps.bind (keeps_ask hstable _) fun hash => ?_
        split
        · exact keeps_pure hstable _
        · exact ih

theorem keeps_isStable (indexedTip pinnedTip : ChainAnchor) :
    coordinator.Keeps P (coordinator.isStable indexedTip pinnedTip) := by
  unfold isStable
  split
  · exact Keeps.bind (keeps_ask hstable _) fun hash => keeps_pure hstable _
  · exact keeps_pure hstable _

theorem keeps_reachedPin (finalTip pinnedTip : ChainAnchor) :
    coordinator.Keeps P (coordinator.reachedPin finalTip pinnedTip) := by
  unfold reachedPin
  split
  · exact keeps_pinStillCanonical hstable pinnedTip
  · exact keeps_pure hstable _

theorem keeps_count (counter amount : ℕ) : coordinator.Keeps P (coordinator.count counter amount) :=
  fun _ hstore => Shared.Program.ensures_ofExcept fun _ _ _ hlater => hstable.later hstore hlater

theorem keeps_countReplayed (report : SyncReport) (result : ApplyBackfillResult) :
    coordinator.Keeps P (coordinator.countReplayed report result) := by
  unfold countReplayed
  split
  · exact keeps_count hstable _ _
  · exact keeps_pure hstable _

end Quiet

/-! ## The stages -/

def Stage.Adds : Stage → Prop
  | .canonical _ _ | .apply _ _ _ => True
  | _ => False

variable (coordinator) in
/-- What holds when a stage begins. -/
def At (stage : Stage) (store : Store) : Prop :=
  store.ReachableBy coordinator.hashing Store.AddsSettled ∧ (stage.Adds → store.index.Settled)

variable (coordinator) in
abbrev Good (store : Store) : Prop :=
  store.ReachableBy coordinator.hashing Store.AddsSettled

theorem stable_good : coordinator.Stable coordinator.Good :=
  fun _ _ hstore hlate => ((Store.Since.refl hstore).register hlate).reachable

theorem stable_since (origin : Store) :
    coordinator.Stable (Store.Since coordinator.hashing origin) :=
  fun _ _ hsince hlate => hsince.register hlate

theorem stable_settled : coordinator.Stable fun store =>
    coordinator.Good store ∧ store.index.Settled := by
  intro store next hstore hlate
  have hsince := (Store.Since.refl hstore.1).register hlate
  exact ⟨hsince.reachable, hsince.settled hstore.2⟩

theorem at_of_good {stage : Stage} (hquiet : ¬stage.Adds)
    (hstore : coordinator.Good store) : coordinator.At stage store :=
  ⟨hstore, fun hadds => absurd hadds hquiet⟩

theorem good_of_commit {next : Store} {report : operation.Report} (hstore : coordinator.Good store)
    (hallowed : store.AddsSettled operation)
    (hcommit : store.commit coordinator.hashing operation =
      .ok (report, next)) : coordinator.Good next := by
  refine .step hstore hallowed ?_
  rw [Store.perform_eq_commit, hcommit]
  rfl

theorem keeps_commit (operation : StoreOperation)
    (hallowed : ∀ store, Allowed store operation ∧ store.AddsSettled operation) :
    coordinator.Keeps coordinator.Good (coordinator.commit operation) :=
  fun _ hstore => ensures_commit stable_good hstore
    (fun s _ => (hallowed s).1) fun s _ _ _ hs hcommit hlater =>
      stable_good.later (good_of_commit hs (hallowed s).2 hcommit) hlater

theorem ensures_noteRestart (report : SyncReport) (hstore : coordinator.Good store) :
    coordinator.Ensures (coordinator.noteRestart report) coordinator.At
      store := by
  refine ensures_seq (keeps_count stable_good _ _ store hstore) fun branchRestarts s hs => ?_
  split
  · trivial
  · exact ensures_pure stable_good hs fun s' hs' => at_of_good id hs'

theorem ensures_rebuildToTip (hstore : coordinator.Good store) :
    coordinator.Ensures coordinator.rebuildToTip coordinator.At store := by
  refine ensures_seq (keeps_read stable_good _ store hstore) fun activation s hs => ?_
  refine ensures_seq (keeps_ask stable_good _ s hs) fun sourceTip s hs => ?_
  split
  · trivial
  refine ensures_seq (keeps_ask stable_good _ s hs) fun sourceHash s hs => ?_
  split
  · trivial
  refine ensures_seq (keeps_read stable_good _ s hs) fun status s hs => ?_
  have hreturn : ∀ s, coordinator.Good s →
      coordinator.At .syncToTip s := fun s hs => at_of_good id hs
  split
  · exact ensures_seq (keeps_commit .resetForRebuild (fun _ => ⟨trivial, trivial⟩) s hs)
      fun _ s hs => ensures_pure stable_good hs hreturn
  · refine ensures_seq (keeps_read stable_good _ s hs) fun indexed s hs => ?_
    split
    · trivial
    · exact ensures_pure stable_good hs hreturn
  · refine ensures_seq (keeps_read stable_good _ s hs) fun indexed s hs => ?_
    split
    · trivial
    · exact ensures_pure stable_good hs hreturn
  · trivial

theorem ensures_syncToTip (hstore : coordinator.Good store) :
    coordinator.Ensures coordinator.syncToTip coordinator.At store := by
  refine ensures_seq (keeps_read stable_good _ store hstore) fun startingTip s hs => ?_
  refine ensures_seq (keeps_read stable_good _ s hs) fun status s hs => ?_
  split
  · exact ensures_seq (keeps_ask stable_good _ s hs) fun _ s hs =>
      ensures_pure stable_good hs fun s' hs' => at_of_good id hs'
  split
  · exact ensures_seq (keeps_commit (.setSyncStatus .syncing 0)
      (fun _ => ⟨trivial, trivial⟩) s hs) fun _ s hs =>
        ensures_pure stable_good hs fun s' hs' => at_of_good id hs'
  · exact ensures_pure stable_good hs fun s' hs' => at_of_good id hs'

theorem keeps_reconcile (pinnedTip : ChainAnchor) :
    coordinator.Keeps coordinator.Good (coordinator.reconcile pinnedTip) := by
  refine Keeps.bind (keeps_read stable_good _) fun indexedTip => ?_
  refine Keeps.bind (keeps_isStable stable_good _ _) fun stable => ?_
  split
  · exact keeps_pure stable_good _
  refine Keeps.bind (keeps_findCommon stable_good _ _ _) fun common => ?_
  refine Keeps.bind (keeps_pinStillCanonical stable_good _) fun pinned => ?_
  split
  · unfold leaveBranch
    split
    · refine Keeps.bind (keeps_ask stable_good _) fun epoch => ?_
      exact Keeps.bind (keeps_commit _ fun _ => ⟨trivial, trivial⟩)
        fun _ => keeps_pure stable_good _
    · refine Keeps.bind (keeps_ask stable_good _) fun epoch => ?_
      exact Keeps.bind (keeps_commit _ fun _ => ⟨trivial, trivial⟩)
        fun _ => keeps_pure stable_good _
  · exact keeps_pure stable_good _

theorem ensures_restart (report : SyncReport) (hstore : coordinator.Good store) :
    coordinator.Ensures (coordinator.restart report) coordinator.At store := by
  refine ensures_seq (keeps_ask stable_good _ store hstore) fun pinnedTip s hs => ?_
  refine ensures_seq (keeps_reconcile _ s hs) fun reconciled s hs => ?_
  split
  · exact ensures_pure stable_good hs fun s' hs' => at_of_good id hs'
  · exact ensures_seq (keeps_count stable_good _ _ s hs) fun _ s hs =>
      ensures_pure stable_good hs fun s' hs' => at_of_good id hs'
  · exact ensures_noteRestart report hs
  · exact ensures_seq (keeps_read stable_good _ s hs) fun _ s hs =>
      ensures_pure stable_good hs fun s' hs' => at_of_good id hs'

theorem ensures_finish (report : SyncReport) (pinnedTip : ChainAnchor)
    (hstore : coordinator.Good store) :
    coordinator.Ensures (coordinator.finish report pinnedTip) coordinator.At
      store := by
  refine ensures_seq (keeps_read stable_good _ store hstore) fun finalTip s hs => ?_
  refine ensures_seq (keeps_reachedPin stable_good _ _ s hs) fun reached s hs => ?_
  split
  · refine ensures_seq (keeps_tryRead stable_good _ s hs) fun pending s hs => ?_
    split
    · exact ensures_pure stable_good hs fun s' hs' => at_of_good id hs'
    · exact ensures_seq (keeps_commit (.setSyncStatus .ready 0)
        (fun _ => ⟨trivial, trivial⟩) s hs) fun _ s hs =>
          ensures_pure stable_good hs fun s' hs' => at_of_good id hs'
  · exact ensures_noteRestart report hs

theorem keeps_status (status : SyncStatus) (origin : Store) :
    coordinator.Keeps (Store.Since coordinator.hashing origin)
      (coordinator.commit (.setSyncStatus status 0)) :=
  fun _ hstore => ensures_commit (stable_since origin) hstore
    (fun _ _ => trivial) fun s _ s' _ hs hcommit hlater => by
      have hperform : s.perform coordinator.hashing (.setSyncStatus status 0) = .ok s' := by
        rw [Store.perform_eq_commit, hcommit]
        rfl
      exact (stable_since origin).later (hs.status hperform) hlater

theorem ensures_canonical (report : SyncReport) (pinnedTip : ChainAnchor)
    (hstore : coordinator.Good store) (hsettled : store.index.Settled) :
    coordinator.Ensures (coordinator.canonical report pinnedTip) coordinator.At
      store := by
  have hstable : coordinator.Stable (Store.Since coordinator.hashing store) := stable_since store
  have hreturn : ∀ stage s, Store.Since coordinator.hashing store s →
      coordinator.At stage s := fun stage s hs =>
    ⟨hs.reachable, fun _ => hs.settled hsettled⟩
  refine ensures_seq (keeps_read hstable _ store (.refl hstore)) fun indexedTip s hs => ?_
  split
  · exact ensures_pure hstable hs (hreturn _)
  split
  · exact ensures_seq (keeps_status .syncing store s hs) fun _ s hs =>
      ensures_pure hstable hs (hreturn _)
  · exact ensures_pure hstable hs (hreturn _)

theorem ensures_apply (report : SyncReport) (pinnedTip : ChainAnchor)
    (height : ℕ) (hstore : coordinator.Good store) (hsettled : store.index.Settled) :
    coordinator.Ensures (coordinator.apply report pinnedTip height) coordinator.At store := by
  have hstable : coordinator.Stable fun store =>
      coordinator.Good store ∧ store.index.Settled := stable_settled
  unfold apply
  split
  · exact ensures_pure hstable ⟨hstore, hsettled⟩ fun s hs => at_of_good id hs.1
  refine ensures_seq (keeps_read hstable _ store ⟨hstore, hsettled⟩) fun currentTip s hs => ?_
  refine ensures_seq (keeps_fetchBlock hstable _ _ _ s hs) fun fetched s hs => ?_
  split
  · exact ensures_noteRestart report hs.1
  refine ensures_seq (keeps_tryRead hstable _ s hs) fun delta s hs => ?_
  refine ensures_seq (keeps_blockStillPinned hstable _ _ s hs) fun pinned s hs => ?_
  split
  · have hcommit : coordinator.Ensures (coordinator.commit (.applyBlock delta))
        (fun _ s => coordinator.Good s ∧ s.index.Settled) s :=
      ensures_commit hstable hs (fun s hs => hs.2)
        fun s _ s' _ hs hcommit hlater => hstable.later ⟨good_of_commit hs.1
            (show s.AddsSettled (.applyBlock delta) from hs.2) hcommit,
            hs.1.settled_applyBlock hs.2 hcommit⟩ hlater
    refine ensures_seq hcommit fun _ s hs => ?_
    refine ensures_seq (keeps_count hstable _ _ s hs) fun _ s hs => ?_
    exact ensures_pure hstable hs fun s' hs' => ⟨hs'.1, fun _ => hs'.2⟩
  · exact ensures_noteRestart report hs.1

theorem positioned_of_pending {origin : Store} (horigin : coordinator.Good origin)
    (hsince : Store.Since coordinator.hashing origin store)
    {pending batch : List BackfillProgress} {delta : BlockDelta}
    (hpending : origin.pendingBackfills = .ok pending)
    (hbatch : ∀ item ∈ batch, item ∈ pending ∧
      item.nextPosition.blockHeight = delta.anchor.height) :
    store.Positioned (batch.map BackfillProgress.contractId) delta := by
  intro c hc
  obtain ⟨item, hitem, rfl⟩ := List.mem_map.mp hc
  obtain ⟨hmem, hat⟩ := hbatch item hitem
  obtain ⟨c, record, hrecord, hcatching, hcursor⟩ := (horigin.mem_pendingBackfills hpending).mp hmem
  have hid : item.contractId = c := (horigin.wellFormed.placed.progress c item hcursor).1
  obtain ⟨hrecord', hcursor'⟩ : (store.index.view c).record = some record ∧
      (store.index.view c).cursor = some item := by
    rcases (hsince.late c).kept with ⟨hsame, hsame'⟩ | ⟨habsent, -⟩
    · exact ⟨hsame.trans hrecord, hsame'.trans hcursor⟩
    · cases habsent.symm.trans hrecord
  have hle := (hsince.reachable.pinsHold c).next_le record item hrecord' hcatching hcursor'
  exact ⟨item, hid ▸ hcursor', hat, hat ▸ hle⟩

theorem ensures_backfillAt (report : SyncReport)
    (pinnedTip indexedTip : ChainAnchor) {height : ℕ} {origin : Store}
    (horigin : coordinator.Good origin) (hsince : Store.Since coordinator.hashing origin store)
    {pending batch : List BackfillProgress} (hpending : origin.pendingBackfills = .ok pending)
    (hbatch : ∀ item ∈ batch, item ∈ pending ∧ item.nextPosition.blockHeight = height) :
    coordinator.Ensures
      (coordinator.backfillAt report pinnedTip indexedTip height batch) coordinator.At store := by
  have hstable : coordinator.Stable (Store.Since coordinator.hashing origin) := stable_since origin
  have hanchor : coordinator.Ensures (coordinator.canonicalAnchor height)
      (fun anchor s => Store.Since coordinator.hashing origin s ∧ anchor.height = height) store :=
    ensures_tryRead hstable hsince fun s anchor s' hs hread hlater =>
      ⟨hstable.later hs hlater, hs.reachable.height_of_canonicalAnchor (okOr_eq_ok.mp hread)⟩
  refine ensures_seq hanchor fun anchor s hs => ?_
  obtain ⟨hs, hheight⟩ := hs
  refine ensures_seq (keeps_expectedPrev hstable _ s hs) fun expectedPrev s hs => ?_
  refine ensures_seq (ensures_fetchCanonicalBackfillBlock hstable anchor
    indexedTip expectedPrev hs) fun fetched s hs => ?_
  obtain ⟨hs, hfetched⟩ := hs
  split
  · exact ensures_noteRestart report hs.reachable
  · next fetched =>
    have hinterpreted : coordinator.Ensures (coordinator.tryRead fun store =>
          interpretBackfillBlock coordinator.hashing coordinator.interpreter store fetched batch)
        (fun delta s => Store.Since coordinator.hashing origin s ∧
          delta.anchor = fetched.anchor) s :=
      ensures_tryRead hstable hs fun s delta s' hs hread hlater => by
        simp only [interpretBackfillBlock, bind_eq_ok, pure_eq_ok] at hread
        obtain ⟨found, -, rfl⟩ := hread
        exact ⟨hstable.later hs hlater, rfl⟩
    refine ensures_seq hinterpreted fun delta s hs => ?_
    obtain ⟨hs, hdelta⟩ := hs
    have hat : delta.anchor.height = height := by rw [hdelta, hfetched fetched rfl, hheight]
    refine ensures_seq (keeps_blockStillPinned hstable _ _ s hs) fun pinned s hs => ?_
    split
    · have hcommit : coordinator.Ensures (coordinator.commit
            (.applyBackfillBlock (batch.map BackfillProgress.contractId) delta))
          (fun _ => coordinator.Good) s :=
        ensures_commit hstable hs
          (fun s hs => positioned_of_pending horigin hs hpending (by rw [hat]; exact hbatch))
          fun s _ s' _ hs hcommit hlater => stable_good.later
            (good_of_commit hs.reachable (show s.AddsSettled
              (.applyBackfillBlock _ delta) from trivial) hcommit) hlater
      refine ensures_seq hcommit fun result s hs => ?_
      refine ensures_seq (keeps_countReplayed stable_good report result s hs) fun _ s hs => ?_
      exact ensures_pure stable_good hs fun s' hs' => at_of_good id hs'
    · exact ensures_noteRestart report hs.reachable

theorem ensures_backfillPending (report : SyncReport) (pinnedTip : ChainAnchor)
    (hstore : coordinator.Good store) :
    coordinator.Ensures (coordinator.backfillPending report pinnedTip) coordinator.At store := by
  have hread : coordinator.Ensures (coordinator.tryRead fun store =>
        store.pendingBackfills.mapError .store)
      (fun pending s => ∃ origin, coordinator.Good origin ∧
        origin.pendingBackfills = .ok pending ∧ Store.Since coordinator.hashing origin s) store :=
    ensures_tryRead stable_good hstore fun s pending s' hs hread hlater =>
      ⟨s, hs, mapError_eq_ok.mp hread, (Store.Since.refl hs).registers hlater⟩
  refine ensures_seq hread fun pending s hs => ?_
  obtain ⟨origin, horigin, hpending, hs⟩ := hs
  have hstable : coordinator.Stable (Store.Since coordinator.hashing origin) := stable_since origin
  have hreturn : (∀ item ∈ pending, origin.chain.tip.height < item.nextPosition.blockHeight) → ∀ s,
        Store.Since coordinator.hashing origin s →
          coordinator.At (.canonical report pinnedTip) s := fun habove s hs =>
    ⟨hs.reachable, fun _ => hs.settled (horigin.settled_of_pending hpending habove)⟩
  split
  · exact ensures_pure hstable hs (hreturn (by simp))
  · next first rest =>
    refine ensures_seq (keeps_status .syncing origin s hs) fun _ s hs => ?_
    have htip : coordinator.Ensures (coordinator.read fun store => store.chain.tip)
        (fun tip s => tip = origin.chain.tip ∧ Store.Since coordinator.hashing origin s) s :=
      ensures_read hstable hs fun s s' hs hlater =>
        ⟨(hs.late first.contractId).tip, hstable.later hs hlater⟩
    refine ensures_seq htip fun tip s hs => ?_
    obtain ⟨rfl, hs⟩ := hs
    split
    · next habove =>
      refine ensures_pure hstable hs (hreturn ?_)
      intro item hitem
      exact lt_of_lt_of_le habove (Store.pendingBackfills_head_le hpending item hitem)
    · refine ensures_backfillAt report pinnedTip _ horigin hs hpending ?_
      intro item hitem
      obtain ⟨hmem, hat⟩ := List.mem_filter.mp hitem
      exact ⟨hmem, of_decide_eq_true hat⟩

theorem ensures_code (stage : Stage) (hat : coordinator.At stage store) :
    coordinator.Ensures (coordinator.code stage) coordinator.At store := by
  obtain ⟨hstore, hadds⟩ := hat
  cases stage with
  | rebuildToTip => exact ensures_rebuildToTip hstore
  | syncToTip => exact ensures_syncToTip hstore
  | restart report => exact ensures_restart report hstore
  | backfillPending report pinnedTip =>
    exact ensures_backfillPending report pinnedTip hstore
  | canonical report pinnedTip =>
    exact ensures_canonical report pinnedTip hstore (hadds trivial)
  | apply report pinnedTip height =>
    exact ensures_apply report pinnedTip height hstore (hadds trivial)
  | finish report pinnedTip => exact ensures_finish report pinnedTip hstore
  | returned outcome =>
    exact ensures_pure stable_good hstore fun s hs => at_of_good id hs

def Fresh (store : Store) : Prop :=
  ∃ anchor epoch, store = .initial anchor epoch

theorem Allowed.addsSettled (hallowed : Allowed store operation) : store.AddsSettled operation := by
  cases operation with
  | applyBlock => exact hallowed
  | _ => trivial

theorem run_ensures {configuration : coordinator.machine.Configuration}
    (hreachable : coordinator.machine.Reachable
      (LateRegistration coordinator.hashing) Fresh configuration) :
    coordinator.Good configuration.1 ∧
      coordinator.Ensures configuration.2 coordinator.At configuration.1 := by
  refine Shared.Machine.Reachable.ensures ?_ ?_ ?_ ?_ (fun stage s => ensures_code stage) hreachable
  · rintro _ ⟨anchor, epoch, rfl⟩
    exact .initial anchor epoch
  · exact stable_good
  · intro s operation report s' hs hallowed hperform
    exact good_of_commit hs hallowed.addsSettled (mapError_eq_ok.mp hperform)
  · rintro stage s (rfl | rfl) hs
    · exact at_of_good id hs
    · exact at_of_good id hs

/-- Whenever a replay is about to be committed, its batch stands at the block
and at or below the pins, so it is not refused for its position. -/
theorem backfill_call_positioned {configuration : coordinator.machine.Configuration}
    (hreachable : coordinator.machine.Reachable
      (LateRegistration coordinator.hashing) Fresh configuration)
    {contractIds : List ContractId} {delta : BlockDelta}
    {next : ApplyBackfillResult → coordinator.Code Stage}
    (hcall : configuration.2 = .commit (.applyBackfillBlock contractIds delta) next) :
    configuration.1.Positioned contractIds delta ∧ ∀ c expected height,
        configuration.1.applyBackfillBlock coordinator.hashing contractIds
            delta ≠ .error (.backfillPositionMismatch c expected height) := by
  have hensures := (run_ensures hreachable).2
  rw [hcall] at hensures
  have hpositioned : configuration.1.Positioned contractIds delta := (hensures _ .refl).1
  exact ⟨hpositioned, fun c expected height herror => hpositioned.keepsPosition _ herror trivial⟩

end SyncCoordinator

/-! ## A contract registered between two calls -/

def minedBlock (height : ℕ) (transaction : Transaction) : Block where
  header := {
    height
    prevBlockhash := 99 + height
    merkleRoot := sampleCrypto.txid transaction }
  txdata := [transaction]

def sampleSource : ∀ query : OutsideQuery, query.Answer
  | .tip => (⟨2, 102⟩ : ChainAnchor)
  | .blockHash height => (100 + height : ℕ)
  | .block hash =>
    if hash = 101 then minedBlock 1 creationTransaction
    else minedBlock 2 { lockTime := 12, input := [], output := [] }
  | .epoch => (0 : ℕ)

def sampleCoordinator : SyncCoordinator NodeInterpretError where
  hashing := sampleCrypto.toHashing
  blockHashing := {
    blockHash := fun header => 100 + header.height
    merkleNode := fun left right => left + right }
  interpreter := sampleInterpreter

def sampleHalt : sampleCoordinator.Code SyncCoordinator.Stage → Bool
  | .commit (.applyBackfillBlock _ _) _ => true
  | .done (.returned _) => true
  | _ => false

def sampleCall (store : Store) : sampleCoordinator.machine.Configuration :=
  sampleCoordinator.machine.advance sampleSource sampleHalt 100 (store, sampleCoordinator.syncToTip)

def secondCall : Except StoreError sampleCoordinator.machine.Configuration := do
  let store ← (sampleCall (.initial sampleAnchor 0)).1.perform
    sampleCrypto.toHashing (.registerContracts [sampleRegistration])
  return sampleCall store

theorem secondCall_reachable {configuration : sampleCoordinator.machine.Configuration}
    (hcall : secondCall = .ok configuration) :
    sampleCoordinator.machine.Reachable
      (LateRegistration sampleCoordinator.hashing) SyncCoordinator.Fresh
      configuration := by
  simp only [secondCall, bind_eq_ok, pure_eq_ok] at hcall
  obtain ⟨store, hregister, rfl⟩ := hcall
  have hentry : sampleCoordinator.machine.Entry .syncToTip := .inl rfl
  have hfresh : SyncCoordinator.Fresh (.initial sampleAnchor 0) := ⟨sampleAnchor, 0, rfl⟩
  have hfirst : sampleCoordinator.machine.Reachable
      (LateRegistration sampleCoordinator.hashing) SyncCoordinator.Fresh
      (sampleCall (.initial sampleAnchor 0)) :=
    .advance _ _ _ (.start hfresh hentry)
  have hlate : LateRegistration sampleCoordinator.hashing
      (sampleCall (.initial sampleAnchor 0)).1 store :=
    ⟨[sampleRegistration], hregister⟩
  exact .advance _ _ _ (.step (.step hfirst (.others hlate)) (.start hentry))

/-- The second call replays the creation block for the market. -/
theorem backfill_call_positioned_secondCall :
    ∃ (configuration : sampleCoordinator.machine.Configuration) (delta : BlockDelta)
      (next : ApplyBackfillResult → sampleCoordinator.Code SyncCoordinator.Stage),
      secondCall = .ok configuration ∧ delta.anchor = ⟨1, 101⟩ ∧ configuration.2 =
          .commit (.applyBackfillBlock [sampleContract] delta) next ∧
        configuration.1.Positioned [sampleContract] delta := by
  have hrun : isOkAnd secondCall (fun configuration =>
      match configuration.2 with
      | .commit (.applyBackfillBlock contractIds delta) _ =>
        decide (contractIds = [sampleContract] ∧ delta.anchor = ⟨1, 101⟩)
      | _ => false) = true := by
    decide +kernel
  obtain ⟨configuration, hcall, htest⟩ := isOkAnd_iff.mp hrun
  split at htest
  · next contractIds delta next hcommit =>
    obtain ⟨rfl, hanchor⟩ := of_decide_eq_true htest
    exact ⟨configuration, delta, next, hcall, hanchor, hcommit,
      (SyncCoordinator.backfill_call_positioned (secondCall_reachable hcall) hcommit).1⟩
  · cases htest

end DeadcatNode
