import DeadcatNode.ContractViews

/-!
# Cursors of late contracts

Every write of the index, every opened and every unwound block is one of the
moves of a contract's view, so what the index holds about a contract fits
together in every reachable store.  In particular a cursor never outlives its
contract.
-/

namespace DeadcatNode

open Checked

variable {allowed : Store → StoreOperation → Prop}

/-! ## Writes of the index, seen from one contract -/

theorem UndoBlock.recordImages_append (c : ContractId) (undo : UndoBlock)
    (changes : List ContractUndo) :
    recordImages c { undo with
        contractChanges := undo.contractChanges ++ changes } =
      undo.recordImages c ++ (changes.filter fun change => change.contractId = c).map
          ContractUndo.before := by
  simp [recordImages]

theorem UndoBlock.cursorImages_append (c : ContractId) (undo : UndoBlock)
    (changes : List BackfillProgressUndo) :
    cursorImages c { undo with
        backfillProgressChanges := undo.backfillProgressChanges ++ changes } =
      undo.cursorImages c ++ (changes.filter fun change => change.contractId = c).map
          BackfillProgressUndo.before := by
  simp [cursorImages]

namespace Index

variable {change : UndoBlock → UndoBlock}

theorem elim_modifyUndo {V : Type} (undoBlocks : Table ℕ UndoBlock) (height : ℕ)
    {images : UndoBlock → List (Option V)} {new : List (Option V)}
    (hchange : ∀ undo, images (change undo) = images undo ++ new) :
    (fun h : ℕ => ((modifyUndo undoBlocks height change)[h]?).elim [] images) =
      CursorView.appendAt (fun h => (undoBlocks[h]?).isSome)
        (fun h => (undoBlocks[h]?).elim [] images) height new := by
  funext h
  simp only [CursorView.appendAt, row_modifyUndo]
  by_cases hh : height = h
  · subst hh
    cases undoBlocks[height]? with
    | none => simp
    | some undo => simpa using hchange undo
  · simp [hh, Ne.symm hh]

theorem elim_modifyUndo_kept {V : Type} (undoBlocks : Table ℕ UndoBlock)
    (height : ℕ) {images : UndoBlock → List (Option V)}
    (hchange : ∀ undo, images (change undo) = images undo) :
    (fun h : ℕ => ((modifyUndo undoBlocks height change)[h]?).elim [] images) =
      fun h => (undoBlocks[h]?).elim [] images := by
  rw [elim_modifyUndo undoBlocks height fun undo =>
    (hchange undo).trans (List.append_nil _).symm, CursorView.appendAt_nil]

theorem isSome_modifyUndo (undoBlocks : Table ℕ UndoBlock) (height : ℕ)
    (change : UndoBlock → UndoBlock) :
    (fun h : ℕ => ((modifyUndo undoBlocks height change)[h]?).isSome) =
      fun h => (undoBlocks[h]?).isSome := by
  funext h
  rw [row_modifyUndo]
  split <;> simp

variable {hashing : Hashing} {activation height : ℕ} {scope : Scope} {index next : Index}

/-- A journalled change of contracts in the undo row of a height. -/
def journalContracts (index : Index) (height : ℕ) (changes : List ContractUndo) : Index :=
  { index with
    undoBlocks := modifyUndo index.undoBlocks height fun undo => { undo with
      contractChanges := undo.contractChanges ++ changes } }

theorem view_journalContracts (index : Index) (height : ℕ)
    (changes : List ContractUndo) (c : ContractId) :
    (index.journalContracts height changes).view c = { index.view c with
      records := CursorView.appendAt (index.view c).retained
        (index.view c).records height
          ((changes.filter fun change => change.contractId = c).map ContractUndo.before) } := by
  simp only [view, journalContracts, isSome_modifyUndo]
  rw [elim_modifyUndo index.undoBlocks height fun undo =>
    UndoBlock.recordImages_append c undo changes]
  congr 1
  exact elim_modifyUndo_kept index.undoBlocks height fun _ => rfl

theorem view_journalProgress (index : Index) (height : ℕ)
    (changes : List BackfillProgressUndo) (c : ContractId) :
    (index.journalProgress height changes).view c = { index.view c with
      cursors := CursorView.appendAt (index.view c).retained
        (index.view c).cursors height ((changes.filter fun change => change.contractId = c).map
            BackfillProgressUndo.before) } := by
  simp only [view, journalProgress, isSome_modifyUndo]
  rw [elim_modifyUndo index.undoBlocks height fun undo =>
    UndoBlock.cursorImages_append c undo changes]
  congr 1
  exact elim_modifyUndo_kept index.undoBlocks height fun _ => rfl

theorem view_putProgress (index : Index) (item : BackfillProgress) (c : ContractId) :
    (index.putProgress item).view c = { index.view c with
      cursor := if item.contractId = c then some item
        else (index.view c).cursor } := by
  by_cases hid : item.contractId = c <;> simp [view, putProgress, hid]

theorem view_createContract (index : Index) (record : ContractRecord) (c : ContractId) :
    (index.createContract hashing height record).view c =
      { (index.journalContracts height [⟨record.contractId, none⟩]).view c with
        record := if record.contractId = c then some record
          else (index.view c).record } := by
  by_cases hid : record.contractId = c <;> simp [view, createContract, journalContracts, hid]

theorem view_replaceContract (index : Index) (journalled : Bool) {before after : ContractRecord}
    (hid : after.contractId = before.contractId) (c : ContractId) :
    (index.replaceContract hashing height journalled before after).view c =
      { (index.journalContracts height
          (if journalled then [⟨before.contractId, some before⟩]
            else [])).view c with
        record := if before.contractId = c then some after
          else (index.view c).record } := by
  have hrecord : ((index.replaceContract hashing height journalled before
      after).view c).record = if before.contractId = c then some after
        else (index.view c).record := by
    by_cases hsame : before.contractId = c <;> simp [view, replaceContract, hid, hsame]
  rw [← hrecord]
  cases journalled with
  | true => simp only [view, replaceContract, journalContracts, if_true]
  | false =>
    simp only [view, replaceContract, journalContracts,
      Bool.false_eq_true, if_false, List.append_nil]

theorem view_kept (c : ContractId) {chain : ChainTables} (htip : chain.tip = index.chain.tip)
    (hblocks : chain.blocks = index.chain.blocks)
    (htables : chain.contractTables = index.chain.contractTables)
    (hprogress : chain.backfillProgress = index.chain.backfillProgress)
    (hchanges : ∀ undo, (change undo).contractChanges = undo.contractChanges)
    (hcursors : ∀ undo, (change undo).backfillProgressChanges = undo.backfillProgressChanges) :
    view ⟨chain, modifyUndo index.undoBlocks height change⟩ c = index.view c := by
  simp only [view, htip, hblocks, htables, hprogress, isSome_modifyUndo]
  rw [elim_modifyUndo_kept index.undoBlocks height fun undo => by
      rw [UndoBlock.recordImages, hchanges, UndoBlock.recordImages],
    elim_modifyUndo_kept index.undoBlocks height fun undo => by
      rw [UndoBlock.cursorImages, hcursors, UndoBlock.cursorImages]]

theorem view_putHistory (index : Index) (contractId : ContractId)
    (entry : StoredHistoryEntry) (c : ContractId) :
    (index.putHistory contractId entry).view c = index.view c :=
  view_kept c rfl rfl rfl rfl (fun _ => rfl) (fun _ => rfl)

theorem Write.view (hindex : index.WellFormed hashing activation)
    (hwrite : Write hashing activation height scope index next) (c : ContractId) :
    CursorView.Write height (index.view c) (next.view c) := by
  have htip : ∀ {position : ChainPosition} {row : StoredTransaction},
      index.chain.transactions[position]? = some row →
        position.blockHeight ≤ index.chain.tip.height :=
    fun hrow => hindex.placed.height_le_tip hindex.linked hrow
  cases hwrite with
  | @putTransaction row =>
    have hview : (index.putTransaction row).view c = index.view c :=
      view_kept c rfl rfl rfl rfl (fun _ => rfl) (fun _ => rfl)
    exact hview ▸ .other
  | setAffected | setHint => exact .other
  | @createContract record row hat hinsertable hrow =>
    rw [view_createContract, view_journalContracts]
    by_cases hid : record.contractId = c
    · subst hid
      simpa using CursorView.Write.create hinsertable.absent hat (hat ▸ htip hrow)
    · simpa [hid, CursorView.appendAt_nil] using CursorView.Write.other
  | @applyTransition before after entry row hat _ hbefore hid _ _ _ _ _ _ hkept hplace =>
    rw [view_putHistory, view_replaceContract _ _ hid, view_journalContracts]
    by_cases hsame : before.contractId = c
    · subst hsame
      have hview : CursorView.Write height (index.view before.contractId) _ :=
        .rewrite hbefore hkept.1 hkept.2 hplace
      simpa using hview
    · simpa [hsame, CursorView.appendAt_nil] using CursorView.Write.other
  | @advance before syncState journalled old item _ hbefore hcatching _ hjournalled hadvances =>
    have hid : ({ before with syncState } : ContractRecord).contractId = before.contractId := rfl
    rw [view_putProgress, view_replaceContract _ _ hid, view_journalContracts, hadvances.contractId]
    by_cases hsame : before.contractId = c
    · subst hsame
      have hentered : (index.view before.contractId).retained height = true →
          some old ∈ (index.view before.contractId).cursors height := by
        intro hretained
        obtain ⟨undo, hundo⟩ := Option.isSome_iff_exists.mp hretained
        simp only [Index.view, hundo, Option.elim_some,
          UndoBlock.cursorImages, List.mem_map, List.mem_filter]
        exact ⟨_, ⟨hadvances.journalled undo hundo, by simp⟩, rfl⟩
      have himages : ∀ image ∈ if journalled then [some before] else [], image = some before := by
        intro image himage
        split at himage
        · exact List.mem_singleton.mp himage
        · cases himage
      have hview := CursorView.Write.advance hbefore hcatching
        hadvances.current hadvances.at_height hadvances.next himages hentered
        hadvances.ready hadvances.pinned
      cases journalled <;> simpa using hview
    · have hnone : ((if journalled then
          [(⟨before.contractId, some before⟩ : ContractUndo)] else []).filter
            fun change => change.contractId = c) = [] := by
        cases journalled <;> simp [hsame]
      simpa [hsame, hnone, CursorView.appendAt_nil] using CursorView.Write.other
  | @putHint hint =>
    have hview : (index.putHint hint).view c = index.view c :=
      view_kept c rfl rfl rfl rfl (fun _ => rfl) (fun _ => rfl)
    exact hview ▸ .other
  | @register record row item hat hinsertable hrow _ hstarts =>
    rw [view_putProgress, view_journalProgress, view_createContract,
      view_journalContracts, hstarts.contractId]
    by_cases hid : record.contractId = c
    · subst hid
      simpa using CursorView.Write.register hinsertable.absent hat (hat ▸ htip hrow) hstarts
    · simpa [hid, CursorView.appendAt_nil] using CursorView.Write.other
  | @journalCursors items hitems =>
    have himages : (((items.map fun item =>
          (⟨item.contractId, some item⟩ : BackfillProgressUndo)).filter
            fun change => change.contractId = c).map BackfillProgressUndo.before) =
        (items.filter fun item => item.contractId = c).map some := by
      rw [List.filter_map, List.map_map]
      rfl
    rw [view_journalProgress, himages]
    apply CursorView.Write.journal
    intro item hitem
    obtain ⟨hmem, hid⟩ := List.mem_filter.mp hitem
    obtain ⟨hcurrent, hat, hpinned⟩ := hitems item hmem
    rw [of_decide_eq_true hid] at hcurrent
    unfold PinnedFor at hpinned
    rw [of_decide_eq_true hid] at hpinned
    exact ⟨hcurrent, hat, hpinned⟩

end Index

/-! ## Blocks of the index, seen from one contract -/

theorem UndoBlock.head_recordImages (c : ContractId) (undo : UndoBlock)
    (current : Option ContractRecord) :
    ((undo.recordImages c).head?).getD current = restoredBy undo.contractChanges c current := by
  unfold UndoBlock.recordImages
  induction undo.contractChanges with
  | nil => rfl
  | cons change rest ih =>
    rw [restoredBy_cons, List.filter_cons]
    by_cases hid : change.contractId = c
    · simp [hid]
    · simpa [hid] using ih

theorem progress_undoProgressChange (c : ContractId) (changes : List BackfillProgressUndo)
    (progress : Table ContractId BackfillProgress) :
    (changes.reverse.foldl undoProgressChange progress)[c]? =
      (((changes.filter fun change => change.contractId = c).map
        BackfillProgressUndo.before).head?).getD progress[c]? := by
  induction changes with
  | nil => rfl
  | cons change rest ih =>
    rw [List.reverse_cons, List.foldl_append, List.filter_cons, List.foldl_cons, List.foldl_nil]
    generalize rest.reverse.foldl undoProgressChange progress = replayed at ih
    unfold undoProgressChange
    by_cases hid : change.contractId = c
    · cases hbefore : change.before <;> simp [hid, hbefore]
    · cases hbefore : change.before with
      | none =>
        dsimp only
        rw [Table.row_erase, if_neg hid, ih, if_neg (by simpa using hid)]
      | some before =>
        dsimp only
        rw [Table.row_insert, if_neg hid, Table.row_erase, if_neg hid, ih,
          if_neg (by simpa using hid)]

namespace Index

variable {hashing : Hashing} {activation : ℕ} {index next : Index}

theorem view_openBlock {delta : BlockDelta}
    (hheight : delta.anchor.height = index.chain.tip.height + 1) (c : ContractId) :
    (index.view c).Opens ((index.openBlock hashing delta).view c) := by
  refine ⟨hheight, ?_, rfl, rfl, ?_⟩
  · intro h hle
    dsimp only [view] at hle
    simp only [view, openBlock, Table.row_insert]
    rw [if_neg (by omega)]
  · intro h
    cases hrow : (index.openBlock hashing delta).undoBlocks[h]? with
    | none =>
      right
      simp [view, hrow, -Std.ExtTreeMap.isSome_getElem?_eq_contains]
    | some undo =>
      rcases undo_openBlock hrow with ⟨hsame, rfl⟩ | ⟨-, hold⟩
      · right
        exact ⟨fun _ => hsame.symm, by simp [view, hrow]; rfl, by simp [view, hrow]; rfl⟩
      · left
        simp [view, hrow, hold, -Std.ExtTreeMap.isSome_getElem?_eq_contains]

theorem view_unwind {undo : UndoBlock} {tables : ContractTables}
    (hindex : index.WellFormed hashing activation)
    (hunwinds : index.Unwinds hashing next undo tables) (c : ContractId) :
    (index.view c).Unwinds (next.view c) := by
  obtain ⟨-, hbelow⟩ := hindex.linked.unwind hunwinds
  obtain ⟨hretained, ⟨affected, affected', hreplayed⟩, rfl⟩ := hunwinds
  have hlocal := hindex.placed.journal _ undo hretained
  refine ⟨hbelow, ?_, ?_, ?_, ?_, ?_, ?_⟩
  · simp only [view, hretained]
    rfl
  · intro h hne
    simp only [view] at hne ⊢
    rw [Table.row_erase, if_neg (Ne.symm hne)]
  · simp only [view, hretained, Option.elim_some]
    rw [UndoBlock.head_recordImages]
    exact contracts_undoContracts hlocal.changes hindex.placed.exact hreplayed c
  · simp only [view, hretained, Option.elim_some]
    exact progress_undoProgressChange c undo.backfillProgressChanges _
  · simp [view, Table.row_erase]
  · intro h hne
    simp only [view] at hne ⊢
    rw [Table.row_erase, if_neg (Ne.symm hne)]
    exact ⟨rfl, rfl, rfl⟩

/-- What the index holds about every contract fits together. -/
def CursorsConsistent (index : Index) : Prop :=
  ∀ c, (index.view c).Consistent

theorem CursorsConsistent.write {height : ℕ} {scope : Scope}
    (hindex : index.WellFormed hashing activation) (hviews : index.CursorsConsistent)
    (hwrite : Index.Write hashing activation height scope index next) :
    next.CursorsConsistent :=
  fun c => (hviews c).write (hwrite.view hindex c)

theorem CursorsConsistent.writes {height : ℕ} {scope : Scope}
    (hindex : index.WellFormed hashing activation) (hviews : index.CursorsConsistent)
    (hwrites : Index.Writes hashing activation height scope index next) :
    next.CursorsConsistent := by
  induction hwrites with
  | refl => exact hviews
  | tail hbefore hwrite ih => exact ih.write (hindex.writes hbefore) hwrite

theorem cursorsConsistent_atAnchor (anchor : ChainAnchor) :
    CursorsConsistent ⟨.atAnchor anchor, ∅⟩ := by
  intro c
  have hrecord : ContractTables.empty.contracts[c]? = none := by simp [ContractTables.empty]
  constructor <;> simp [view, ChainTables.atAnchor, hrecord]

theorem cursorsConsistent_invariant (hashing : Hashing) (anchor : ChainAnchor) :
    Invariant hashing anchor (fun _ _ => True) CursorsConsistent where
  atAnchor := cursorsConsistent_atAnchor anchor
  write hindex hviews hwrite := hviews.write hindex hwrite
  openBlock _ hviews hheight _ := fun c => (hviews c).opens (view_openBlock hheight c)
  unwind hindex hviews hunwinds := fun c => (hviews c).unwinds (view_unwind hindex hunwinds c)

end Index

/-- In every reachable store records, cursors and undo rows fit together. -/
theorem Store.ReachableBy.cursorsConsistent {hashing : Hashing} {store : Store}
    (hstore : store.ReachableBy hashing allowed) :
    store.index.CursorsConsistent :=
  hstore.invariant (Index.cursorsConsistent_invariant hashing) fun _ _ => trivial

theorem Store.ReachableBy.contract_of_cursor {hashing : Hashing} {store : Store}
    (hstore : store.ReachableBy hashing allowed) {c : ContractId} {cursor : BackfillProgress}
    (hcursor : store.chain.backfillProgress[c]? = some cursor) :
    ∃ record, store.chain.contractTables.contracts[c]? = some record := by
  have hview := hstore.cursorsConsistent c
  cases hrecord : store.chain.contractTables.contracts[c]? with
  | some record => exact ⟨record, rfl⟩
  | none =>
    have hnone : store.chain.backfillProgress[c]? = none := (hview.absent hrecord).1
    rw [hnone] at hcursor
    cases hcursor

end DeadcatNode
