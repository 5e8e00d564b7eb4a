import DeadcatNode.NodeStoreOperations

/-!
# Epochs of the event journal

When the store is invalidated it draws a fresh event epoch, and it leaves that
state only by the reset which discards everything derived from the chain.  Until
then nothing changes, so an epoch which is read twice outside the invalid state
tells that the state was not entered in between.
-/

namespace DeadcatNode

open Checked

variable {delta : BlockDelta}

/-! ## Writes keep the epoch -/

namespace BlockWrite

variable {hashing : Hashing} {write next : BlockWrite}

theorem applyChainTransaction_epoch {anchor : ChainAnchor} {delta : ChainTxDelta}
    (happly : write.applyChainTransaction hashing anchor delta = .ok next) :
    next.journal.epoch = write.journal.epoch := by
  simp only [applyChainTransaction, bind_eq_ok, pure_eq_ok] at happly
  obtain ⟨_, -, _, -, created, hcreated, updated, hupdated, journal, hjournal, rfl⟩ := happly
  have hcreatedKept : created.journal = write.journal := by
    refine foldlM_unchanged BlockWrite.journal ?_ _ hcreated
    intro before contract after hcreate
    obtain ⟨-, -, rfl⟩ := createContract_eq_ok.mp hcreate
    rfl
  have hupdatedKept : updated.journal = created.journal := by
    refine foldlM_unchanged BlockWrite.journal ?_ _ hupdated
    intro before update after hupdate
    obtain ⟨_, -, -, rfl⟩ := applyUpdate_eq_ok.mp hupdate
    rfl
  have hepoch := EventJournal.appendEvent_epoch hjournal
  rw [storeTransaction, hupdatedKept, hcreatedKept] at hepoch
  exact hepoch

theorem advanceCatching_epoch {blockDigest nextHeight : ℕ} {progress : BackfillProgress}
    (hadvance : write.advanceCatching hashing delta blockDigest nextHeight progress =
      .ok next) : next.journal.epoch = write.journal.epoch := by
  obtain ⟨before, -, hcase⟩ := advanceCatching_eq_ok hadvance
  rcases hcase with ⟨-, -, journal, hepoch, rfl⟩ | ⟨-, rfl⟩
  · exact hepoch
  · rfl

theorem applyDelta_epoch (happly : write.applyDelta hashing delta = .ok next) :
    next.journal.epoch = write.journal.epoch := by
  simp only [applyDelta, bind_eq_ok] at happly
  obtain ⟨applied, happlied, hinted, hhinted, hadvance⟩ := happly
  have happliedKept : applied.journal.epoch = write.journal.epoch :=
    foldlM_unchanged (fun w : BlockWrite => w.journal.epoch)
      (fun _ _ _ => applyChainTransaction_epoch) _ happlied
  have hhintedKept : hinted.journal.epoch = applied.journal.epoch := by
    refine foldlM_unchanged (fun w : BlockWrite => w.journal.epoch) ?_ _ hhinted
    intro before hint after hinsert
    obtain ⟨-, rfl⟩ := insertRecoveryHint_eq_ok.mp hinsert
    rfl
  have hadvanceKept : next.journal.epoch = hinted.journal.epoch := by
    unfold advanceCatchingThroughCanonicalBlock at hadvance
    dsimp only at hadvance
    split at hadvance
    · cases hadvance
      rfl
    · simp only [bind_eq_ok, okOr_eq_ok] at hadvance
      obtain ⟨nextHeight, -, hfold⟩ := hadvance
      exact foldlM_unchanged (fun w : BlockWrite => w.journal.epoch)
        (fun _ _ _ => advanceCatching_epoch) _ hfold
  exact hadvanceKept.trans (hhintedKept.trans happliedKept)

end BlockWrite

namespace BackfillWrite

variable {hashing : Hashing} {write next : BackfillWrite}

theorem applyBackfillTransaction_journal {targets : List ContractId} {delta : ChainTxDelta}
    (happly : write.applyBackfillTransaction hashing targets delta = .ok next) :
    next.journal = write.journal := by
  simp only [applyBackfillTransaction, bind_eq_ok] at happly
  obtain ⟨_, -, _, -, updated, hupdated, hstore⟩ := happly
  have hupdatedKept : updated.journal = write.journal := by
    refine foldlM_unchanged BackfillWrite.journal ?_ _ hupdated
    intro before update after hupdate
    obtain ⟨-, _, -, -, -, -, rfl⟩ := applyUpdate_eq_ok.mp hupdate
    rfl
  rcases storeTransaction_ok hstore with ⟨stored, merged, -, rfl⟩ | ⟨-, rfl⟩
  · exact hupdatedKept
  · exact hupdatedKept

theorem advanceTarget_epoch {nextHeight : ℕ} {item : BackfillProgress}
    (hadvance : write.advanceTarget hashing delta nextHeight item = .ok next) :
    next.journal.epoch = write.journal.epoch := by
  simp only [advanceTarget, bind_eq_ok] at hadvance
  obtain ⟨before, -, _, -, tables, -, applied, happlied, hadvance⟩ := hadvance
  have hkept := EventJournal.appendEvent_epoch happlied
  split at hadvance
  · simp only [bind_eq_ok, pure_eq_ok] at hadvance
    obtain ⟨journal, hjournal, rfl⟩ := hadvance
    exact (EventJournal.appendEvent_epoch hjournal).trans hkept
  · simp only [bind_eq_ok, pure_eq_ok, Except.ok.injEq] at hadvance
    obtain ⟨journal, rfl, rfl⟩ := hadvance
    exact hkept

end BackfillWrite

/-! ## What operations do to the status -/

namespace Store

variable {hashing : Hashing} {store next : Store} {operation : StoreOperation}

/-- How an operation changes the status and the epoch. -/
inductive StatusStep (operation : StoreOperation) (store next : Store) : Prop where
  | kept (hvalid : store.syncStatus ≠ .rescanRequired) (hstatus : next.syncStatus ≠ .rescanRequired)
      (hepoch : next.journal.epoch = store.journal.epoch)
  | entered (hvalid : store.syncStatus ≠ .rescanRequired)
      (hstatus : next.syncStatus = .rescanRequired)
  | unchanged (hstatus : store.syncStatus = .rescanRequired) (hsame : next = store)
  | reset (hstatus : store.syncStatus = .rescanRequired) (hoperation : operation = .resetForRebuild)
      (hnext : next.syncStatus = .syncing) (hepoch : next.journal.epoch = store.journal.epoch)

theorem markRebuildRequired_status {epoch : ℕ}
    (hmark : store.markRebuildRequired epoch = .ok next) : StatusStep operation store next := by
  unfold markRebuildRequired at hmark
  split at hmark
  · next hstatus =>
    cases hmark
    exact .unchanged hstatus rfl
  · next hvalid =>
    simp only [bind_eq_ok, pure_eq_ok] at hmark
    obtain ⟨journal, -, rfl⟩ := hmark
    exact .entered hvalid rfl

theorem perform_status (hperform : store.perform hashing operation = .ok next) :
    StatusStep operation store next := by
  cases operation with
  | applyBlock delta =>
    simp only [perform, map_eq_ok, Prod.exists] at hperform
    obtain ⟨result, _, happly, rfl⟩ := hperform
    have hvalid : store.syncStatus ≠ .rescanRequired := by
      simp only [applyBlock, bind_eq_ok, require_eq_ok] at happly
      obtain ⟨_, -, _, hvalid, -⟩ := happly
      exact hvalid
    rcases applyBlock_ok happly with ⟨-, rfl⟩ | ⟨-, write, hextends, rfl⟩
    · exact .kept hvalid hvalid rfl
    · exact .kept hvalid hvalid (BlockWrite.applyDelta_epoch hextends.written)
  | registerContracts registrations =>
    simp only [perform, map_eq_ok, Prod.exists] at hperform
    obtain ⟨results, _, hregister, rfl⟩ := hperform
    have hvalid : store.syncStatus ≠ .rescanRequired := by
      simp only [registerContracts, bind_eq_ok, require_eq_ok] at hregister
      obtain ⟨_, -, _, -, _, hvalid, -⟩ := hregister
      exact hvalid
    have hbinding := registerContracts_binding hregister
    simp only [binding, Prod.mk.injEq] at hbinding
    refine .kept hvalid ?_ hbinding.2.2
    rw [hbinding.2.1]
    exact hvalid
  | applyBackfillBlock contractIds delta =>
    simp only [perform, map_eq_ok, Prod.exists] at hperform
    obtain ⟨result, _, happly, rfl⟩ := hperform
    have hvalid : store.syncStatus ≠ .rescanRequired := by
      simp only [applyBackfillBlock, bind_eq_ok, require_eq_ok] at happly
      obtain ⟨_, -, _, -, _, -, _, hvalid, -⟩ := happly
      exact hvalid
    rcases applyBackfillBlock_ok happly with
      ⟨-, rfl⟩ | ⟨-, progress, replayed, write, hbackfills, rfl⟩
    · exact .kept hvalid hvalid rfl
    · have hreplayed : replayed.journal = store.journal :=
        foldlM_unchanged BackfillWrite.journal
          (fun _ _ _ => BackfillWrite.applyBackfillTransaction_journal) _ hbackfills.replay
      have hadvanced : write.journal.epoch = replayed.journal.epoch :=
        foldlM_unchanged (fun w : BackfillWrite => w.journal.epoch)
          (fun _ _ _ => BackfillWrite.advanceTarget_epoch) _ hbackfills.advance
      refine .kept hvalid hvalid ?_
      rw [← hreplayed]
      exact hadvanced
  | rollbackTo ancestor epoch =>
    simp only [perform, rollbackTo, map_eq_ok, Prod.exists, bind_eq_ok, require_eq_ok] at hperform
    obtain ⟨result, _, ⟨_, hvalid, hrollback⟩, rfl⟩ := hperform
    split at hrollback
    · simp only [pure_eq_ok, Prod.mk.injEq] at hrollback
      obtain ⟨-, rfl⟩ := hrollback
      exact .kept hvalid hvalid rfl
    · simp only [bind_eq_ok, require_eq_ok] at hrollback
      obtain ⟨_, -, hrollback⟩ := hrollback
      split at hrollback
      · simp only [bind_eq_ok, pure_eq_ok, Prod.mk.injEq] at hrollback
        obtain ⟨marked, hmarked, -, rfl⟩ := hrollback
        exact markRebuildRequired_status hmarked
      · simp only [bind_eq_ok, require_eq_ok, pure_eq_ok, Prod.mk.injEq] at hrollback
        obtain ⟨write, -, _, -, journal, hjournal, -, rfl⟩ := hrollback
        exact .kept hvalid (fun hstatus => by cases hstatus)
          (EventJournal.appendEvent_epoch hjournal)
  | setSyncStatus status epoch =>
    simp only [perform, setSyncStatus, map_eq_ok, Prod.exists] at hperform
    obtain ⟨cursor, _, hset, rfl⟩ := hperform
    split at hset
    · simp only [bind_eq_ok, pure_eq_ok, Prod.mk.injEq] at hset
      obtain ⟨marked, hmarked, -, rfl⟩ := hset
      exact markRebuildRequired_status hmarked
    · next hstatus =>
      simp only [bind_eq_ok, require_eq_ok] at hset
      obtain ⟨_, hvalid, hset⟩ := hset
      split at hset
      · simp only [pure_eq_ok, Prod.mk.injEq] at hset
        obtain ⟨-, rfl⟩ := hset
        exact .kept hvalid hvalid rfl
      · simp only [bind_eq_ok, pure_eq_ok, Prod.mk.injEq] at hset
        obtain ⟨journal, hjournal, -, rfl⟩ := hset
        exact .kept hvalid hstatus (EventJournal.appendEvent_epoch hjournal)
  | invalidateForRebuild epoch =>
    simp only [perform, invalidateForRebuild, map_eq_ok, bind_eq_ok, pure_eq_ok,
      Prod.exists, Prod.mk.injEq] at hperform
    obtain ⟨_, _, ⟨marked, hmarked, -, rfl⟩, rfl⟩ := hperform
    exact markRebuildRequired_status hmarked
  | resetForRebuild =>
    simp only [perform, resetForRebuild, map_eq_ok, bind_eq_ok, require_eq_ok,
      pure_eq_ok, Prod.exists, Prod.mk.injEq] at hperform
    obtain ⟨_, _, ⟨_, hstatus, journal, hjournal, -, rfl⟩, rfl⟩ := hperform
    exact .reset hstatus rfl rfl (EventJournal.appendEvent_epoch hjournal)

theorem attempt_status (hashing : Hashing) (store : Store) (operation : StoreOperation) :
    store.attempt hashing operation = store ∨
      StatusStep operation store (store.attempt hashing operation) := by
  unfold attempt
  cases hperform : store.perform hashing operation with
  | error error => exact .inl rfl
  | ok next => exact .inr (perform_status hperform)

theorem attempt_invalid (hstatus : store.syncStatus = .rescanRequired)
    (hoperation : operation ≠ .resetForRebuild) : store.attempt hashing operation = store := by
  rcases attempt_status hashing store operation with hsame | hstep
  · exact hsame
  · cases hstep with
    | kept hvalid | entered hvalid => exact absurd hstatus hvalid
    | unchanged _ hsame => exact hsame
    | reset _ hreset _ _ => exact absurd hreset hoperation

/-! ## Fresh epochs -/

/-- Whenever a run enters the invalid state, its new epoch differs from all the
epochs before. -/
def FreshEpochs (hashing : Hashing) (store : Store) (operations : List StoreOperation) : Prop :=
  ∀ before operation after, operations = before ++ operation :: after →
    (store.attempts hashing before).syncStatus ≠ .rescanRequired →
    (store.attempts hashing (before ++ [operation])).syncStatus = .rescanRequired →
    ∀ earlier, earlier <+: before → (store.attempts hashing (before ++ [operation])).journal.epoch ≠
        (store.attempts hashing earlier).journal.epoch

theorem FreshEpochs.of_append {operations later : List StoreOperation}
    (hfresh : store.FreshEpochs hashing (operations ++ later)) :
    store.FreshEpochs hashing operations := by
  intro before operation after hsplit
  refine hfresh before operation (after ++ later) ?_
  rw [hsplit, List.append_assoc, List.cons_append]

theorem attempts_append (operations later : List StoreOperation) :
    store.attempts hashing (operations ++ later) =
      (store.attempts hashing operations).attempts hashing later :=
  List.foldl_append

theorem epoch_after {before later : List StoreOperation}
    (hfresh : store.FreshEpochs hashing (before ++ later))
    (hvalid : (store.attempts hashing before).syncStatus ≠ .rescanRequired) :
    (∀ seen, seen <+: later →
        (store.attempts hashing (before ++ seen)).syncStatus ≠ .rescanRequired) ∧
      (store.attempts hashing (before ++ later)).journal.epoch =
        (store.attempts hashing before).journal.epoch ∨
    (store.attempts hashing (before ++ later)).journal.epoch ≠
      (store.attempts hashing before).journal.epoch := by
  -- The induction is on the last operation.
  induction later using List.reverseRecOn with
  | nil =>
    left
    rw [List.append_nil]
    refine ⟨?_, rfl⟩
    intro seen hseen
    rw [List.prefix_nil.mp hseen, List.append_nil]
    exact hvalid
  | append_singleton later operation ih =>
    have hshorter : store.FreshEpochs hashing (before ++ later) := by
      rw [← List.append_assoc] at hfresh
      exact hfresh.of_append
    have hnext : store.attempts hashing (before ++ (later ++ [operation])) =
        (store.attempts hashing (before ++ later)).attempt hashing operation := by
      rw [← List.append_assoc, attempts_append]
      rfl
    -- An epoch drawn at the last operation differs from the one before.
    have hentered : (store.attempts hashing (before ++ later)).syncStatus ≠ .rescanRequired →
        ((store.attempts hashing (before ++ later)).attempt hashing
          operation).syncStatus = .rescanRequired →
        ((store.attempts hashing (before ++ later)).attempt hashing operation).journal.epoch ≠
          (store.attempts hashing before).journal.epoch := by
      intro hlast hstatus
      rw [← hnext, ← List.append_assoc] at hstatus ⊢
      exact hfresh (before ++ later) operation [] (by rw [List.append_assoc]) hlast
        hstatus before (List.prefix_append before later)
    rw [hnext]
    rcases ih hshorter with ⟨hnever, hepoch⟩ | hdiffers
    · have hlast := hnever later List.prefix_rfl
      have hearlier : ∀ next : Store,
          store.attempts hashing (before ++ (later ++ [operation])) = next →
          next.syncStatus ≠ .rescanRequired → ∀ seen, seen <+: later ++ [operation] →
          (store.attempts hashing (before ++ seen)).syncStatus ≠ .rescanRequired := by
        intro next hend hstatus seen hseen
        rcases List.prefix_concat_iff.mp hseen with rfl | hshort
        · rw [hend]
          exact hstatus
        · exact hnever seen hshort
      rcases attempt_status hashing (store.attempts hashing (before ++ later))
          operation with hsame | hstep
      · rw [hsame]
        rw [hsame] at hnext
        exact .inl ⟨hearlier _ hnext hlast, hepoch⟩
      · cases hstep with
        | kept _ hstatus hkept =>
          exact .inl ⟨hearlier _ hnext hstatus, hkept.trans hepoch⟩
        | entered _ hstatus => exact .inr (hentered hlast hstatus)
        | unchanged hstatus | reset hstatus => exact absurd hstatus hlast
    · right
      rcases attempt_status hashing (store.attempts hashing (before ++ later))
          operation with hsame | hstep
      · rw [hsame]
        exact hdiffers
      · cases hstep with
        | kept _ _ hkept | reset _ _ _ hkept => exact hkept ▸ hdiffers
        | entered hlast hstatus => exact hentered hlast hstatus
        | unchanged _ hsame =>
          rw [hsame]
          exact hdiffers

end Store

end DeadcatNode
