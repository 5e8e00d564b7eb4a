import DeadcatNode.NodeStoreInvariant

/-!
# Runs of the store

The public operations which change an initialised store, and the stores which
can be reached by successful calls in any order.  A failing call leaves the
store as it was, so only successful calls are steps of a run.
-/

namespace DeadcatNode

open Checked

variable {hashing : Hashing} {scope : Index.Scope} {activation : ℕ}

inductive StoreOperation where
  | applyBlock (delta : BlockDelta)
  | registerContracts (registrations : List Registration)
  | applyBackfillBlock (contractIds : List ContractId) (delta : BlockDelta)
  | rollbackTo (ancestor : ChainAnchor) (epoch : ℕ)
  | setSyncStatus (status : SyncStatus) (epoch : ℕ)
  | invalidateForRebuild (epoch : ℕ)
  | resetForRebuild

/-- The store after an operation, without the operation's report. -/
def Store.perform (hashing : Hashing) (store : Store) : StoreOperation → Except StoreError Store
  | .applyBlock delta => Prod.snd <$> store.applyBlock hashing delta
  | .registerContracts registrations =>
    Prod.snd <$> store.registerContracts hashing registrations
  | .applyBackfillBlock contractIds delta =>
    Prod.snd <$> store.applyBackfillBlock hashing contractIds delta
  | .rollbackTo ancestor epoch =>
    Prod.snd <$> store.rollbackTo hashing ancestor epoch
  | .setSyncStatus status epoch => Prod.snd <$> store.setSyncStatus status epoch
  | .invalidateForRebuild epoch => Prod.snd <$> store.invalidateForRebuild epoch
  | .resetForRebuild => Prod.snd <$> store.resetForRebuild

/-- Stores reached from a fresh one by successful operations which all meet a
condition in the store they are applied to. -/
inductive Store.ReachableBy (hashing : Hashing)
    (allowed : Store → StoreOperation → Prop) : Store → Prop where
  | initial (anchor : ChainAnchor) (epoch : ℕ) : ReachableBy hashing allowed (.initial anchor epoch)
  | step {store next : Store} {operation : StoreOperation}
      (hstore : ReachableBy hashing allowed store) (hallowed : allowed store operation)
      (hperform : store.perform hashing operation = .ok next) : ReachableBy hashing allowed next

abbrev Store.Reachable (hashing : Hashing) : Store → Prop :=
  ReachableBy hashing fun _ _ => True

/-! ## Rollback, block by block -/

def RollbackWrite.index (write : RollbackWrite) : Index :=
  ⟨write.chain, write.undoBlocks⟩

def Index.Unwound (hashing : Hashing) (index next : Index) : Prop :=
  ∃ undo tables, index.Unwinds hashing next undo tables

theorem RollbackWrite.undoBlock_unwinds {write next : RollbackWrite}
    (hundo : write.undoBlock hashing write.chain.tip.height = .ok next) :
    write.index.Unwound hashing next.index := by
  simp only [undoBlock, bind_eq_ok, okOr_eq_ok, pure_eq_ok, Prod.exists] at hundo
  obtain ⟨undo, hretained, tables, affected, hreplayed, rfl⟩ := hundo
  exact ⟨undo, tables, hretained, ⟨_, _, hreplayed⟩, rfl⟩

theorem rollbackHeights_succ (ancestor count : ℕ) :
    rollbackHeights (ancestor + (count + 1)) ancestor =
      (ancestor + count + 1) :: rollbackHeights (ancestor + count) ancestor := by
  have hlong : ancestor + (count + 1) - ancestor = count + 1 := by omega
  have hshort : ancestor + count - ancestor = count := by omega
  rw [rollbackHeights, rollbackHeights, hlong, hshort, List.range_succ_eq_map,
    List.map_cons, List.map_map]
  congr 1
  apply List.map_congr_left
  intro i hi
  rw [Function.comp_apply]
  omega

theorem rollbackHeights_self (ancestor : ℕ) : rollbackHeights ancestor ancestor = [] := by
  simp [rollbackHeights]

theorem RollbackWrite.undoBlocks_unwinds
    (ancestor count : ℕ) {write next : RollbackWrite} (hlinked : write.index.Linked activation)
    (hheight : write.chain.tip.height = ancestor + count)
    (hundo : (rollbackHeights (ancestor + count) ancestor).foldlM
      (RollbackWrite.undoBlock hashing) write = .ok next) :
    Relation.ReflTransGen (Index.Unwound hashing) write.index next.index := by
  induction count generalizing write with
  | zero =>
    rw [Nat.add_zero, rollbackHeights_self] at hundo
    simp only [List.foldlM_nil, pure_eq_ok] at hundo
    exact hundo ▸ .refl
  | succ count ih =>
    rw [rollbackHeights_succ] at hundo
    simp only [List.foldlM_cons, bind_eq_ok] at hundo
    obtain ⟨mid, hmid, hrest⟩ := hundo
    rw [Nat.add_assoc, ← hheight] at hmid
    have hunwound := undoBlock_unwinds hmid
    obtain ⟨undo, tables, hunwinds⟩ := hunwound
    obtain ⟨hlinkedMid, hbelow⟩ := hlinked.unwind hunwinds
    have hmidHeight : mid.chain.tip.height = ancestor + count := by
      have hsucc : mid.chain.tip.height + 1 = write.chain.tip.height := hbelow
      omega
    exact .head ⟨undo, tables, hunwinds⟩ (ih hlinkedMid hmidHeight hrest)

variable {store : Store} {next : Store}

theorem Store.markRebuildRequired_index {epoch : ℕ}
    (hmark : store.markRebuildRequired epoch = .ok next) :
    next.index = store.index ∧
      next.activationAnchor = store.activationAnchor := by
  unfold markRebuildRequired at hmark
  split at hmark
  · cases hmark
    exact ⟨rfl, rfl⟩
  · simp only [bind_eq_ok, pure_eq_ok] at hmark
    obtain ⟨journal, -, rfl⟩ := hmark
    exact ⟨rfl, rfl⟩

theorem Store.rollbackTo_unwinds {ancestor : ChainAnchor} {epoch : ℕ} {result : RollbackResult}
    (hlinked : store.index.Linked store.activationAnchor.height)
    (hrollback : store.rollbackTo hashing ancestor epoch = .ok (result, next)) :
    Relation.ReflTransGen (Index.Unwound hashing) store.index next.index ∧
      next.activationAnchor = store.activationAnchor := by
  simp only [rollbackTo, bind_eq_ok, require_eq_ok] at hrollback
  obtain ⟨-, -, hrollback⟩ := hrollback
  split at hrollback
  · simp only [pure_eq_ok, Prod.mk.injEq] at hrollback
    obtain ⟨-, rfl⟩ := hrollback
    exact ⟨.refl, rfl⟩
  · simp only [bind_eq_ok, require_eq_ok] at hrollback
    obtain ⟨-, hbelow, hrollback⟩ := hrollback
    split at hrollback
    · simp only [bind_eq_ok, pure_eq_ok, Prod.mk.injEq] at hrollback
      obtain ⟨marked, hmarked, -, rfl⟩ := hrollback
      obtain ⟨hindex, hactivation⟩ := markRebuildRequired_index hmarked
      rw [hindex, hactivation]
      exact ⟨.refl, rfl⟩
    · simp only [bind_eq_ok, require_eq_ok, pure_eq_ok, Prod.mk.injEq] at hrollback
      obtain ⟨write, hwrite, -, -, journal, -, -, rfl⟩ := hrollback
      refine ⟨?_, rfl⟩
      have hcount : store.chain.tip.height =
          ancestor.height + (store.chain.tip.height - ancestor.height) := by
        omega
      rw [hcount] at hwrite
      have hstart : RollbackWrite.index ⟨store.chain, store.undoBlocks, [], []⟩ = store.index := rfl
      have hunwinds := RollbackWrite.undoBlocks_unwinds ancestor.height _
        (hstart ▸ hlinked) hcount hwrite
      exact hunwinds

theorem Store.setSyncStatus_index {status : SyncStatus} {epoch : ℕ} {cursor : EventCursor}
    (hset : store.setSyncStatus status epoch = .ok (cursor, next)) :
    next.index = store.index ∧
      next.activationAnchor = store.activationAnchor := by
  unfold setSyncStatus at hset
  split at hset
  · simp only [bind_eq_ok, pure_eq_ok, Prod.mk.injEq] at hset
    obtain ⟨marked, hmarked, -, rfl⟩ := hset
    exact markRebuildRequired_index hmarked
  · simp only [bind_eq_ok, require_eq_ok] at hset
    obtain ⟨-, -, hset⟩ := hset
    split at hset
    · simp only [pure_eq_ok, Prod.mk.injEq] at hset
      obtain ⟨-, rfl⟩ := hset
      exact ⟨rfl, rfl⟩
    · simp only [bind_eq_ok, pure_eq_ok, Prod.mk.injEq] at hset
      obtain ⟨journal, -, -, rfl⟩ := hset
      exact ⟨rfl, rfl⟩

/-! ## Steps of the index -/

/-- Conditions on the blocks which are applied, on the blocks which are
backfilled and on the records which are registered. -/
structure Index.Conditions where
  extend : Index → BlockDelta → Prop := fun _ _ => True
  backfill : Index → ℕ → Set ContractId → Prop := fun _ _ _ => True
  register : Set ContractRecord → Prop := fun _ => True

/-- What operations do to the index. -/
inductive Index.Step (hashing : Hashing) (activation : ChainAnchor) (conditions : Conditions) :
    Index → Index → Prop where
  | applyBlock {index next : Index} (delta : BlockDelta)
      (hheight : delta.anchor.height = index.chain.tip.height + 1)
      (hshaped : delta.Shaped hashing) (hextend : conditions.extend index delta)
      (hwrites : Index.Writes hashing activation.height delta.anchor.height delta.scope
        (index.openBlock hashing delta) next) : Step hashing activation conditions index next
  | backfill {index next : Index} (height : ℕ) (touched : Set ContractId)
      (hbackfill : conditions.backfill index height touched)
      (hheight : height ≤ index.chain.tip.height)
      (hwrites : Index.Writes hashing activation.height height ⟨touched, ∅⟩ index next) :
      Step hashing activation conditions index next
  | register {index next : Index} (created : Set ContractRecord)
      (hregister : conditions.register created)
      (hwrites : Index.LateWrites hashing activation.height created index next) :
      Step hashing activation conditions index next
  | unwind {index next : Index} (hunwound : index.Unwound hashing next) :
      Step hashing activation conditions index next
  | reset {index : Index} : Step hashing activation conditions index ⟨.atAnchor activation, ∅⟩

/-- The invariants which hold for arbitrary deltas. -/
structure Index.WellFormed (hashing : Hashing) (activation : ℕ) (index : Index) : Prop where
  linked : index.Linked activation
  placed : index.Placed hashing activation

variable {conditions : Index.Conditions} {mayExtend : Index → BlockDelta → Prop}

namespace Index.WellFormed

variable {hashing : Hashing} {index next : Index}

theorem write {height : ℕ} (hindex : index.WellFormed hashing activation)
    (hwrite : Index.Write hashing activation height scope index next) :
    next.WellFormed hashing activation :=
  ⟨hindex.linked.write hwrite, hindex.placed.write hwrite⟩

theorem writes {height : ℕ} (hindex : index.WellFormed hashing activation)
    (hwrites : Index.Writes hashing activation height scope index next) :
    next.WellFormed hashing activation := by
  induction hwrites with
  | refl => exact hindex
  | tail _ hwrite ih => exact ih.write hwrite

theorem openBlock {delta : BlockDelta} (hindex : index.WellFormed hashing activation)
    (hheight : delta.anchor.height = index.chain.tip.height + 1) (hshaped : delta.Shaped hashing) :
    (index.openBlock hashing delta).WellFormed hashing activation :=
  ⟨hindex.linked.openBlock hheight hshaped.nodup, hindex.placed.openBlock hindex.linked hheight⟩

theorem step {activation : ChainAnchor} (hindex : index.WellFormed hashing activation.height)
    (hstep : Index.Step hashing activation conditions index next) :
    next.WellFormed hashing activation.height := by
  cases hstep with
  | applyBlock delta hheight hshaped _ hwrites =>
    exact (hindex.openBlock hheight hshaped).writes hwrites
  | backfill _ _ _ _ hwrites => exact hindex.writes hwrites
  | register _ _ hwrites =>
    induction hwrites with
    | refl => exact hindex
    | tail _ hwrite ih =>
      obtain ⟨height, hwrite⟩ := hwrite
      exact ih.write hwrite
  | unwind hunwound =>
    obtain ⟨undo, tables, hunwinds⟩ := hunwound
    exact ⟨(hindex.linked.unwind hunwinds).1, hindex.placed.unwind hunwinds⟩
  | reset =>
    exact ⟨Index.linked_atAnchor activation,
      Index.placed_atAnchor hashing activation.height activation⟩

theorem steps {activation : ChainAnchor} (hindex : index.WellFormed hashing activation.height)
    (hsteps : Relation.ReflTransGen (Index.Step hashing activation conditions) index next) :
    next.WellFormed hashing activation.height := by
  induction hsteps with
  | refl => exact hindex
  | tail _ hstep ih => exact ih.step hstep

end Index.WellFormed

/-- A property which single writes, new blocks and blocks taken back keep. -/
structure Index.Invariant (hashing : Hashing) (activation : ChainAnchor)
    (mayExtend : Index → BlockDelta → Prop) (P : Index → Prop) : Prop where
  atAnchor : P ⟨.atAnchor activation, ∅⟩
  write : ∀ {index next : Index} {height : ℕ} {scope : Scope},
    index.WellFormed hashing activation.height → P index →
      Index.Write hashing activation.height height scope index next → P next
  openBlock : ∀ {index : Index} {delta : BlockDelta}, index.WellFormed hashing activation.height →
    P index → delta.anchor.height = index.chain.tip.height + 1 → mayExtend index delta →
      P (index.openBlock hashing delta)
  unwind : ∀ {index next : Index} {undo : UndoBlock} {tables : ContractTables},
    index.WellFormed hashing activation.height → P index →
      index.Unwinds hashing next undo tables → P next

namespace Index.Invariant

variable {hashing : Hashing} {activation : ChainAnchor} {mayExtend : Index → BlockDelta → Prop}
  {P : Index → Prop} {index next : Index} (hinvariant : Invariant hashing activation mayExtend P)
  (hindex : index.WellFormed hashing activation.height) (hP : P index)

include hinvariant hindex hP

theorem writes {height : ℕ}
    (hwrites : Index.Writes hashing activation.height height scope index next) : P next := by
  induction hwrites with
  | refl => exact hP
  | tail hbefore hwrite ih => exact hinvariant.write (hindex.writes hbefore) ih hwrite

theorem step
    (hstep : Index.Step hashing activation { extend := mayExtend } index next) : P next := by
  cases hstep with
  | applyBlock delta hheight hshaped hextend hwrites =>
    exact hinvariant.writes (hindex.openBlock hheight hshaped)
      (hinvariant.openBlock hindex hP hheight hextend) hwrites
  | backfill _ _ _ _ hwrites => exact hinvariant.writes hindex hP hwrites
  | register _ _ hwrites =>
    suffices hboth : next.WellFormed hashing activation.height ∧ P next from hboth.2
    induction hwrites with
    | refl => exact ⟨hindex, hP⟩
    | tail _ hwrite ih =>
      obtain ⟨height, hwrite⟩ := hwrite
      exact ⟨ih.1.write hwrite, hinvariant.write ih.1 ih.2 hwrite⟩
  | unwind hunwound =>
    obtain ⟨undo, tables, hunwinds⟩ := hunwound
    exact hinvariant.unwind hindex hP hunwinds
  | reset => exact hinvariant.atAnchor

theorem steps
    (hsteps : Relation.ReflTransGen
      (Index.Step hashing activation { extend := mayExtend }) index next) : P next := by
  induction hsteps with
  | refl => exact hP
  | tail hbefore hstep ih => exact hinvariant.step (hindex.steps hbefore) ih hstep

end Index.Invariant

theorem Store.Extends.fresh
    {delta : BlockDelta} {write : BlockWrite} (hextends : store.Extends hashing delta write)
    (hindex : store.index.WellFormed hashing store.activationAnchor.height) :
    ∀ transaction ∈ delta.relevantTransactions,
      store.chain.transactions[transaction.position]? = none := by
  intro transaction htransaction
  have hheight := hextends.height
  have hnew := (hextends.shaped.transactions _ htransaction).height
  by_contra hsome
  obtain ⟨row, hrow⟩ := Option.ne_none_iff_exists'.mp hsome
  have hle : transaction.position.blockHeight ≤ store.chain.tip.height :=
    hindex.placed.height_le_tip hindex.linked hrow
  omega

/-- Every successful operation is a sequence of steps of the index. -/
theorem Store.perform_steps {operation : StoreOperation} (conditions : Index.Conditions)
    (hindex : store.index.WellFormed hashing store.activationAnchor.height)
    (hextend : ∀ delta write, operation = .applyBlock delta →
      store.Extends hashing delta write → conditions.extend store.index delta)
    (hbackfill : ∀ contractIds delta result, operation = .applyBackfillBlock contractIds delta →
      store.applyBackfillBlock hashing contractIds delta = .ok (result, next) →
        result.applied = true →
          conditions.backfill store.index delta.anchor.height {c | c ∈ contractIds})
    (hregister : ∀ registrations, operation = .registerContracts registrations →
      conditions.register {record | record ∈ registrations.map Prod.fst})
    (hperform : store.perform hashing operation = .ok next) :
    Relation.ReflTransGen (Index.Step hashing store.activationAnchor conditions) store.index
        next.index ∧
      next.activationAnchor = store.activationAnchor := by
  obtain ⟨hlinked, hplaced⟩ := hindex
  cases operation with
  | applyBlock delta =>
    simp only [perform, map_eq_ok, Prod.exists] at hperform
    obtain ⟨result, _, happly, rfl⟩ := hperform
    rcases applyBlock_ok happly with ⟨-, rfl⟩ | ⟨-, write, hextends, rfl⟩
    · exact ⟨.refl, rfl⟩
    · have hheight := hextends.height
      have habove := hlinked.above
      refine ⟨.single (.applyBlock delta hheight hextends.shaped
        (hextend delta write rfl hextends) (hextends.writes ?_ hplaced.exact
          hplaced.progress (hextends.fresh ⟨hlinked, hplaced⟩))), rfl⟩
      have htip : store.index.chain.tip = store.chain.tip := rfl
      rw [htip] at habove
      omega
  | registerContracts registrations =>
    simp only [perform, map_eq_ok, Prod.exists] at hperform
    obtain ⟨results, _, hregistered, rfl⟩ := hperform
    exact ⟨.single (.register _ (hregister registrations rfl)
      (registerContracts_writes hlinked.filled hregistered)),
      congrArg Prod.fst (registerContracts_binding hregistered)⟩
  | applyBackfillBlock contractIds delta =>
    simp only [perform, map_eq_ok, Prod.exists] at hperform
    obtain ⟨result, _, happly, rfl⟩ := hperform
    rcases applyBackfillBlock_ok happly with
      ⟨-, rfl⟩ | ⟨happlied, progress, replayed, write, hbackfills, rfl⟩
    · exact ⟨.refl, rfl⟩
    · have hheight := ChainTables.height_le_of_canonicalAnchor hbackfills.canonical
      have habove : store.activationAnchor.height < delta.anchor.height := by
        obtain ⟨c, hc⟩ := List.exists_mem_of_ne_nil _ hbackfills.targeted
        obtain ⟨item, hitem, hrow⟩ := exists_mem_of_readProgress hbackfills.read hc
        rw [← (hbackfills.cursors item hitem).1]
        exact (hplaced.progress c item hrow).2
      have htargets : {c | c ∈ sortDedupContracts contractIds} = {c | c ∈ contractIds} := by
        ext c
        exact mem_sortDedupContracts
      have hwrites := hbackfills.writes habove
        (hlinked.filled _ habove hheight) hplaced.exact hplaced.progress
      rw [htargets] at hwrites
      exact ⟨.single (.backfill delta.anchor.height _
        (hbackfill contractIds delta result rfl happly happlied) hheight hwrites), rfl⟩
  | rollbackTo ancestor epoch =>
    simp only [perform, map_eq_ok, Prod.exists] at hperform
    obtain ⟨result, _, hrollback, rfl⟩ := hperform
    obtain ⟨hunwinds, hactivation⟩ := rollbackTo_unwinds hlinked hrollback
    refine ⟨?_, hactivation⟩
    exact Relation.ReflTransGen.mono (fun _ _ => Index.Step.unwind) _ _ hunwinds
  | setSyncStatus status epoch =>
    simp only [perform, map_eq_ok, Prod.exists] at hperform
    obtain ⟨cursor, _, hset, rfl⟩ := hperform
    obtain ⟨hsame, hactivation⟩ := setSyncStatus_index hset
    exact ⟨hsame ▸ .refl, hactivation⟩
  | invalidateForRebuild epoch =>
    simp only [perform, invalidateForRebuild, map_eq_ok, bind_eq_ok,
      pure_eq_ok, Prod.exists, Prod.mk.injEq] at hperform
    obtain ⟨_, _, ⟨marked, hmarked, -, rfl⟩, rfl⟩ := hperform
    obtain ⟨hsame, hactivation⟩ := markRebuildRequired_index hmarked
    exact ⟨hsame ▸ .refl, hactivation⟩
  | resetForRebuild =>
    simp only [perform, resetForRebuild, map_eq_ok, bind_eq_ok, require_eq_ok,
      pure_eq_ok, Prod.exists, Prod.mk.injEq] at hperform
    obtain ⟨_, _, ⟨-, -, journal, -, -, rfl⟩, rfl⟩ := hperform
    exact ⟨.single .reset, rfl⟩

variable {allowed : Store → StoreOperation → Prop}

theorem Store.ReachableBy.wellFormed (hreachable : store.ReachableBy hashing allowed) :
    store.index.WellFormed hashing store.activationAnchor.height := by
  induction hreachable with
  | initial anchor epoch =>
    exact ⟨Index.linked_atAnchor anchor, Index.placed_atAnchor hashing anchor.height anchor⟩
  | step _ _ hperform ih =>
    obtain ⟨hsteps, hactivation⟩ := perform_steps {} ih (fun _ _ _ _ => trivial)
      (fun _ _ _ _ _ _ => trivial) (fun _ _ => trivial) hperform
    rw [hactivation]
    exact ih.steps hsteps

/-- An invariant of the index holds in every reachable store. -/
theorem Store.ReachableBy.invariant {P : ChainAnchor → Index → Prop}
    (hstore : store.ReachableBy hashing allowed)
    (hinvariant : ∀ activation, Index.Invariant hashing activation mayExtend (P activation))
    (hextend : ∀ {store : Store} {delta : BlockDelta} {write : BlockWrite},
      allowed store (.applyBlock delta) → store.Extends hashing delta write →
        mayExtend store.index delta) : P store.activationAnchor store.index := by
  induction hstore with
  | initial anchor => exact (hinvariant anchor).atAnchor
  | @step store next operation hbefore hallowed hperform ih =>
    obtain ⟨hsteps, hactivation⟩ := perform_steps { extend := mayExtend } hbefore.wellFormed
      (by rintro delta write rfl hextends; exact hextend hallowed hextends)
      (fun _ _ _ _ _ _ => trivial) (fun _ _ => trivial) hperform
    rw [hactivation]
    exact (hinvariant _).steps hbefore.wellFormed ih hsteps

/-! ## Runs -/

/-- A call of the store.  A failing one leaves it as it was. -/
def Store.attempt (hashing : Hashing) (store : Store) (operation : StoreOperation) : Store :=
  match store.perform hashing operation with
  | .ok next => next
  | .error _ => store

def Store.attempts (hashing : Hashing) (store : Store) (operations : List StoreOperation) : Store :=
  operations.foldl (attempt hashing) store

theorem Store.ReachableBy.attempts
    (hstore : store.ReachableBy hashing fun _ _ => True) (operations : List StoreOperation) :
    (store.attempts hashing operations).ReachableBy hashing fun _ _ => True := by
  induction operations generalizing store with
  | nil => exact hstore
  | cons operation rest ih =>
    apply ih
    unfold attempt
    cases hperform : store.perform hashing operation with
    | error error => exact hstore
    | ok next => exact .step hstore trivial hperform

/-- In every state reached by calls in any order, the index tables are exact
projections of the contract rows: no outpoint has two owners, and no row is left
of a contract which is not stored. -/
theorem Store.index_tables_exact (hashing : Hashing) (anchor : ChainAnchor)
    (epoch : ℕ) (operations : List StoreOperation) :
    let tables : ContractTables :=
      ((Store.initial anchor epoch).attempts hashing operations).chain.contractTables
    -- one row for each tracked outpoint
    (∀ (outpoint : OutPoint) (owner : OutpointOwner),
      tables.outpointOwners[outpoint]? = some owner ↔ ∃ record : ContractRecord,
          tables.contracts[owner.contractId]? = some record ∧
            ⟨owner.role, outpoint⟩ ∈ record.outpoints) ∧
    (∀ (c : ContractId) (role : ℕ) (outpoint : OutPoint),
      tables.contractOutpoints[contractOutpointKey c role]? = some outpoint ↔
        ∃ record : ContractRecord, tables.contracts[c]? = some record ∧
          ⟨role, outpoint⟩ ∈ record.outpoints) ∧
    (∀ (c c' : ContractId) (record record' : ContractRecord) (outpoint : OutPoint),
      tables.contracts[c]? = some record → tables.contracts[c']? = some record' →
      outpoint ∈ record.outpoints.map TrackedOutpoint.outpoint →
      outpoint ∈ record'.outpoints.map TrackedOutpoint.outpoint → c = c') ∧
    (∀ (c : ContractId) (record : ContractRecord), tables.contracts[c]? = some record →
      record.contractId = c ∧ record.Valid hashing) ∧
    -- the scripts of live contracts
    (∀ (key : ScriptKey) (script : ScriptBinding), tables.scriptIndex[key]? = some script ↔
        ∃ (c : ContractId) (record : ContractRecord), tables.contracts[c]? = some record ∧
          contractIsLive record.state = true ∧ script ∈ record.scripts ∧
          scriptKey hashing c script = key) ∧
    -- the assets of all contracts
    ∀ (key : AssetKey) (asset : AssetBinding), tables.assetRelations[key]? = some asset ↔
        ∃ (c : ContractId) (record : ContractRecord),
          tables.contracts[c]? = some record ∧ asset ∈ record.assets ∧ assetKey c asset = key := by
  intro tables
  have hinitial : (Store.initial anchor epoch).ReachableBy hashing fun _ _ => True :=
    .initial anchor epoch
  have hexact : tables.Exact hashing := (hinitial.attempts operations).wellFormed.placed.exact
  refine ⟨hexact.owner_iff, hexact.outpoint_iff, ?_, ?_, hexact.script_iff, hexact.asset_iff⟩
  · intro c c' record record' outpoint hrow hrow' hmem hmem'
    obtain ⟨tracked, htracked, rfl⟩ := List.mem_map.mp hmem
    obtain ⟨tracked', htracked', hsame⟩ := List.mem_map.mp hmem'
    exact hexact.unique_owner hrow hrow' htracked htracked' hsame.symm
  · exact fun c record hrow => ⟨hexact.keyed c record hrow, hexact.valid c record hrow⟩

end DeadcatNode
