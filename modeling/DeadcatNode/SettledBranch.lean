import DeadcatNode.BackfillPins

/-!
# Late contracts on a growing branch

Registrations leave the contracts alone which are there already, and pin new
ones to the tip.  A new block promotes the contracts which wait for it.  So once
no late contract would be left behind by a new block, this stays so until a
block is taken back.
-/

namespace DeadcatNode

open Checked

/-! ## What registrations leave alone -/

namespace CursorView

/-- A contract is as it was, or it was registered since; then its cursor is
pinned to the tip. -/
structure Late (view next : CursorView) : Prop where
  tip : next.tip = view.tip
  blocks : next.blocks = view.blocks
  kept : next.record = view.record ∧ next.cursor = view.cursor ∨
    view.record = none ∧ ∀ cursor, next.cursor = some cursor → cursor.pinnedTip = view.tip

theorem Late.refl (view : CursorView) : view.Late view :=
  ⟨rfl, rfl, .inl ⟨rfl, rfl⟩⟩

theorem Late.trans {first second third : CursorView}
    (h : first.Late second) (h' : second.Late third) : first.Late third := by
  refine ⟨h'.tip.trans h.tip, h'.blocks.trans h.blocks, ?_⟩
  rcases h'.kept with ⟨hrecord', hcursor'⟩ | ⟨habsent', hpins'⟩
  · rw [hrecord', hcursor']
    exact h.kept
  · rcases h.kept with ⟨hrecord, -⟩ | ⟨habsent, -⟩
    · exact .inr ⟨hrecord ▸ habsent', h.tip ▸ hpins'⟩
    · exact .inr ⟨habsent, h.tip ▸ hpins'⟩

end CursorView

namespace Index

variable {hashing : Hashing} {activation : ℕ} {created : Set ContractRecord} {index next : Index}

theorem Write.late {height : ℕ} (hviews : index.CursorsConsistent)
    (hwrite : Write hashing activation height ⟨∅, created⟩ index next) (c : ContractId) :
    (index.view c).Late (next.view c) := by
  cases hwrite with
  | putTransaction | putHint | journalCursors => exact ⟨rfl, rfl, .inl ⟨rfl, rfl⟩⟩
  | setAffected => exact .refl _
  | @createContract record _ _ hinsertable =>
    refine ⟨rfl, rfl, ?_⟩
    by_cases hid : record.contractId = c
    · subst hid
      have habsent : (index.view record.contractId).record = none := hinsertable.absent
      refine .inr ⟨habsent, ?_⟩
      intro cursor hcursor
      cases ((hviews record.contractId).absent habsent).1.symm.trans hcursor
    · refine .inl ⟨?_, rfl⟩
      rw [view_createContract, if_neg hid]
  | applyTransition _ htouched | advance htouched => cases htouched
  | setHint => exact .refl _
  | @register record _ item _ hinsertable _ _ hstarts =>
    refine ⟨rfl, rfl, ?_⟩
    rw [view_putProgress, view_journalProgress, view_createContract, hstarts.contractId]
    by_cases hid : record.contractId = c
    · subst hid
      refine .inr ⟨hinsertable.absent, ?_⟩
      intro cursor hcursor
      simp only [if_true, Option.some.injEq] at hcursor
      exact hcursor ▸ hstarts.pinned
    · exact .inl ⟨by simp only [if_neg hid], by simp only [if_neg hid]; rfl⟩

theorem LateWrites.late (hindex : index.WellFormed hashing activation)
    (hviews : index.CursorsConsistent)
    (hwrites : LateWrites hashing activation created index next) (c : ContractId) :
    (index.view c).Late (next.view c) := by
  suffices hall : next.WellFormed hashing activation ∧
      next.CursorsConsistent ∧ (index.view c).Late (next.view c) from hall.2.2
  induction hwrites with
  | refl => exact ⟨hindex, hviews, .refl _⟩
  | tail _ hwrite ih =>
    obtain ⟨hmid, hviewsMid, hlate⟩ := ih
    obtain ⟨height, hwrite⟩ := hwrite
    exact ⟨hmid.write hwrite, hviewsMid.write hmid hwrite, hlate.trans (hwrite.late hviewsMid c)⟩

end Index

/-- A registration committed by someone else. -/
def LateRegistration (hashing : Hashing) (store next : Store) : Prop :=
  ∃ registrations, store.perform hashing (.registerContracts registrations) = .ok next

/-- The store now, when it was `origin` at an earlier action of the coordinator
and has only been registered in since. -/
structure Store.Since (hashing : Hashing) (origin store : Store) : Prop where
  reachable : store.ReachableBy hashing AddsSettled
  late : ∀ c, (origin.index.view c).Late (store.index.view c)

section

variable {hashing : Hashing} {origin store next : Store}

theorem Store.Since.refl (hstore : store.ReachableBy hashing AddsSettled) :
    Since hashing store store :=
  ⟨hstore, fun _ => .refl _⟩

theorem Store.Since.register (hsince : Since hashing origin store)
    (hregisters : LateRegistration hashing store next) : Since hashing origin next := by
  obtain ⟨registrations, hperform⟩ := hregisters
  have hreachable := hsince.reachable
  have hallowed : store.AddsSettled (.registerContracts registrations) := trivial
  refine ⟨.step hreachable hallowed hperform, ?_⟩
  intro c
  simp only [perform, map_eq_ok, Prod.exists] at hperform
  obtain ⟨results, _, hregister, rfl⟩ := hperform
  have hwrites := registerContracts_writes hreachable.wellFormed.linked.filled hregister
  exact (hsince.late c).trans (hwrites.late hreachable.wellFormed hreachable.cursorsConsistent c)

theorem Store.Since.registers (hsince : Since hashing origin store)
    (hregisters : Relation.ReflTransGen (LateRegistration hashing) store next) :
    Since hashing origin next := by
  induction hregisters with
  | refl => exact hsince
  | tail _ hstep ih => exact ih.register hstep

theorem Store.Since.status (hsince : Since hashing origin store) {status : SyncStatus} {epoch : ℕ}
    (hperform : store.perform hashing (.setSyncStatus status epoch) =
      .ok next) : Since hashing origin next := by
  have hallowed : store.AddsSettled (.setSyncStatus status epoch) := trivial
  refine ⟨.step hsince.reachable hallowed hperform, ?_⟩
  simp only [perform, map_eq_ok, Prod.exists] at hperform
  obtain ⟨cursor, _, hset, rfl⟩ := hperform
  rw [(setSyncStatus_index hset).1]
  exact hsince.late

/-! ## Pins which stay on the branch -/

theorem Store.ReachableBy.onBranch_of_tip
    (hreachable : store.ReachableBy hashing AddsSettled) {c : ContractId}
    {record : ContractRecord} {cursor : BackfillProgress}
    (hrecord : (store.index.view c).record = some record)
    (hcatching : record.syncState.isCatchingUp = true)
    (hcursor : (store.index.view c).cursor = some cursor)
    (hpin : cursor.pinnedTip = store.chain.tip) : (store.index.view c).OnBranch cursor := by
  have hlow : store.activationAnchor.height < cursor.nextPosition.blockHeight :=
    (hreachable.wellFormed.placed.progress c cursor hcursor).2
  have hhigh := (hreachable.pinsHold c).next_le record cursor hrecord hcatching hcursor
  have htip := hreachable.anchored.tip
  unfold Index.anchorAt at htip
  rw [hpin] at hhigh
  have hne : ¬store.index.chain.tip.height = store.activationAnchor.height := by
    show ¬store.chain.tip.height = _
    omega
  rw [if_neg hne, Option.map_eq_some_iff] at htip
  obtain ⟨block, hblock, hanchor⟩ := htip
  refine ⟨block, ?_, ?_⟩
  · rw [hpin]
    exact hblock
  · rw [hpin]
    exact hanchor

theorem Store.Since.settled (hsince : Since hashing origin store)
    (hsettled : origin.index.Settled) : store.index.Settled := by
  intro c record cursor hrecord hcatching hcursor
  have hlate := hsince.late c
  rcases hlate.kept with ⟨hsame, hsame'⟩ | ⟨-, hpins⟩
  · have hold := hsettled c record cursor (hsame ▸ hrecord) hcatching (hsame' ▸ hcursor)
    unfold CursorView.OnBranch at hold ⊢
    rw [hlate.tip, hlate.blocks]
    exact hold
  · have hpin : cursor.pinnedTip = store.chain.tip := (hpins cursor hcursor).trans hlate.tip.symm
    refine .inr ⟨?_, hsince.reachable.onBranch_of_tip hrecord hcatching hcursor hpin⟩
    rw [hpin]
    exact le_rfl

end

/-! ## Waiting contracts are promoted -/

namespace BlockWrite

variable {hashing : Hashing} {delta : BlockDelta} {write next : BlockWrite}

/-- The contracts which wait for a height are among the given cursors. -/
def WaitingAmong (height : ℕ) (rows : List BackfillProgress) (write : BlockWrite) : Prop :=
  ∀ (c : ContractId) (record : ContractRecord) (cursor : BackfillProgress),
    write.chain.contractTables.contracts[c]? = some record → record.syncState.isCatchingUp = true →
      write.chain.backfillProgress[c]? = some cursor →
      cursor.nextPosition.blockHeight = height → cursor.contractId = c ∧ cursor ∈ rows

theorem advanceCatching_waiting {blockDigest nextHeight height : ℕ}
    {progress : BackfillProgress} {rows : List BackfillProgress}
    (hexact : write.chain.contractTables.Exact hashing)
    (hwaiting : WaitingAmong height (progress :: rows) write)
    (hadvance : write.advanceCatching hashing delta blockDigest nextHeight progress = .ok next) :
    next.chain.contractTables.Exact hashing ∧ WaitingAmong height rows next := by
  obtain ⟨before, hbefore, hcases⟩ := advanceCatching_eq_ok hadvance
  have hid : before.contractId = progress.contractId := hexact.keyed _ _ hbefore
  rcases hcases with ⟨-, hinsertable, journal, -, rfl⟩ | ⟨hready, rfl⟩
  · refine ⟨(hexact.removeContract (hid ▸ hbefore)).putContract hinsertable, ?_⟩
    intro c record cursor hrecord hcatching hcursor hat
    simp only [promoted, ContractTables.putContract_contracts,
      ContractTables.removeContract_contracts, Table.row_insert,
      Table.row_erase, hid] at hrecord hcursor
    by_cases hsame : progress.contractId = c
    · rw [if_pos hsame] at hrecord
      cases hrecord
      cases hcatching
    · rw [if_neg hsame] at hcursor
      rw [if_neg hsame, if_neg hsame] at hrecord
      obtain ⟨hcursorId, hmem⟩ := hwaiting c record cursor hrecord hcatching hcursor hat
      refine ⟨hcursorId, ?_⟩
      rcases List.mem_cons.mp hmem with rfl | hrest
      · exact absurd hcursorId hsame
      · exact hrest
  · refine ⟨hexact, ?_⟩
    intro c record cursor hrecord hcatching hcursor hat
    obtain ⟨hcursorId, hmem⟩ := hwaiting c record cursor hrecord hcatching hcursor hat
    refine ⟨hcursorId, ?_⟩
    rcases List.mem_cons.mp hmem with rfl | hrest
    · rw [hcursorId, hrecord] at hbefore
      cases hbefore
      rw [hready] at hcatching
      cases hcatching
    · exact hrest

theorem advanceCursors_waiting {blockDigest nextHeight height : ℕ} {rows : List BackfillProgress}
    (hexact : write.chain.contractTables.Exact hashing) (hwaiting : WaitingAmong height rows write)
    (hadvance : rows.foldlM
      (advanceCatching hashing delta blockDigest nextHeight) write = .ok next) :
    WaitingAmong height [] next := by
  induction rows generalizing write with
  | nil =>
    simp only [List.foldlM_nil, pure_eq_ok] at hadvance
    exact hadvance ▸ hwaiting
  | cons progress rest ih =>
    simp only [List.foldlM_cons, bind_eq_ok] at hadvance
    obtain ⟨mid, hmid, hrest⟩ := hadvance
    obtain ⟨hexactMid, hwaitingMid⟩ := advanceCatching_waiting hexact hwaiting hmid
    exact ih hexactMid hwaitingMid hrest

theorem advanceThrough_waiting {blockDigest : ℕ} (hexact : write.chain.contractTables.Exact hashing)
    (hkeyed : ∀ (c : ContractId) (item : BackfillProgress),
      write.chain.backfillProgress[c]? = some item → item.contractId = c)
    (hadvance : write.advanceCatchingThroughCanonicalBlock hashing delta blockDigest = .ok next) :
    WaitingAmong delta.anchor.height [] next := by
  have hwaiting : WaitingAmong delta.anchor.height
      ((write.chain.backfillProgress.toList.map Prod.snd).filter fun progress =>
          progress.nextPosition.blockHeight = delta.anchor.height) write := by
    intro c record cursor _ _ hcursor hat
    refine ⟨hkeyed c cursor hcursor, List.mem_filter.mpr ⟨?_, by simpa using hat⟩⟩
    exact List.mem_map.mpr ⟨(c, cursor),
      Std.ExtTreeMap.mem_toList_iff_getElem?_eq_some.mpr hcursor, rfl⟩
  unfold advanceCatchingThroughCanonicalBlock at hadvance
  dsimp only at hadvance
  split at hadvance
  · next hempty =>
    cases hadvance
    rw [hempty] at hwaiting
    exact hwaiting
  · simp only [bind_eq_ok] at hadvance
    obtain ⟨nextHeight, -, hadvance⟩ := hadvance
    exact advanceCursors_waiting hexact hwaiting hadvance

end BlockWrite

section

variable {hashing : Hashing} {store : Store} {delta : BlockDelta} {write : BlockWrite}

theorem Store.Extends.waiting
    (hindex : store.index.WellFormed hashing store.activationAnchor.height)
    (hextends : store.Extends hashing delta write) :
    BlockWrite.WaitingAmong delta.anchor.height [] write := by
  have hperm : (delta.relevantTransactions.insertionSort fun a b =>
      a.position.txIndex ≤ b.position.txIndex).Perm
        delta.relevantTransactions := List.perm_insertionSort _ _
  have hnodup : (delta.relevantTransactions.map ChainTxDelta.position).Nodup :=
    hextends.shaped.ordered.imp fun hlt => hlt.ne
  have hwritten := hextends.written
  simp only [BlockWrite.applyDelta, bind_eq_ok] at hwritten
  obtain ⟨applied, happlied, hinted, hhinted, hadvance⟩ := hwritten
  have hexact := (@BlockWrite.applyTransactions_writes 0 hashing delta
    store.undoBlocks store.startBlock applied delta.anchor _
    ((hperm.map ChainTxDelta.position).nodup_iff.mpr hnodup)
    (fun transaction hmem => hextends.shaped.transactions transaction
      (hperm.mem_iff.mp hmem)) hindex.placed.exact
    (fun transaction hmem => hextends.fresh hindex transaction (hperm.mem_iff.mp hmem)) happlied).1
  have hkept : hinted.chain.contractTables = applied.chain.contractTables ∧
      hinted.chain.backfillProgress = applied.chain.backfillProgress := by
    have hunchanged := foldlM_unchanged (fun w : BlockWrite =>
      (w.chain.contractTables, w.chain.backfillProgress))
      (fun _ _ _ hstep => by
        obtain ⟨-, rfl⟩ := BlockWrite.insertRecoveryHint_eq_ok.mp hstep
        rfl) _ hhinted
    exact ⟨congrArg Prod.fst hunchanged, congrArg Prod.snd hunchanged⟩
  have hprogress : applied.chain.backfillProgress = store.chain.backfillProgress :=
    foldlM_unchanged (fun w : BlockWrite => w.chain.backfillProgress)
      (fun _ _ _ hstep => BlockWrite.progress_applyChainTransaction hstep) _ happlied
  refine BlockWrite.advanceThrough_waiting (hkept.1 ▸ hexact) ?_ hadvance
  rw [hkept.2, hprogress]
  exact fun c item hitem => (hindex.placed.progress c item hitem).1

end

namespace CursorView

/-- After writes at the tip, a contract which is catching up was catching up
before with the same cursor, or it is pinned to the tip. -/
structure AtTip (view next : CursorView) : Prop where
  tip : next.tip = view.tip
  blocks : next.blocks = view.blocks
  catching : ∀ record cursor, next.record = some record →
    record.syncState.isCatchingUp = true → next.cursor = some cursor →
      (∃ old, view.record = some old ∧ old.syncState.isCatchingUp = true ∧
        view.cursor = some cursor) ∨ cursor.pinnedTip = view.tip

theorem AtTip.refl (view : CursorView) : view.AtTip view :=
  ⟨rfl, rfl, fun record _ hrecord hcatching hcursor => .inl ⟨record, hrecord, hcatching, hcursor⟩⟩

theorem AtTip.trans {first second third : CursorView}
    (h : first.AtTip second) (h' : second.AtTip third) : first.AtTip third := by
  refine ⟨h'.tip.trans h.tip, h'.blocks.trans h.blocks, ?_⟩
  intro record cursor hrecord hcatching hcursor
  rcases h'.catching record cursor hrecord hcatching hcursor with
    ⟨old, hold, hcatching', hcursor'⟩ | hpin
  · exact h.catching old cursor hold hcatching' hcursor'
  · exact .inr (hpin.trans h.tip)

theorem Write.atTip {view next : CursorView} (hview : view.Consistent)
    (hwrite : Write view.tip.height view next) : view.AtTip next := by
  cases hwrite with
  | other => exact .refl view
  | create habsent =>
    refine ⟨rfl, rfl, ?_⟩
    intro record cursor _ _ hcursor
    cases (hview.absent habsent).1.symm.trans hcursor
  | register _ _ _ hstarts =>
    refine ⟨rfl, rfl, ?_⟩
    intro record cursor _ _ hcursor
    cases hcursor
    exact .inr hstarts.pinned
  | rewrite hbefore _ hsync =>
    refine ⟨rfl, rfl, ?_⟩
    intro record cursor hrecord hcatching hcursor
    cases hrecord
    exact .inl ⟨_, hbefore, hsync ▸ hcatching, hcursor⟩
  | advance _ _ _ _ _ _ _ _ hpinned =>
    refine ⟨rfl, rfl, ?_⟩
    intro record cursor hrecord hcatching _
    cases hrecord
    exact absurd (hpinned hcatching).1 (lt_irrefl _)
  | journal =>
    exact ⟨rfl, rfl, fun record _ hrecord hcatching hcursor =>
      .inl ⟨record, hrecord, hcatching, hcursor⟩⟩

end CursorView

theorem Index.Writes.atTip {hashing : Hashing} {activation height : ℕ}
    {scope : Index.Scope} {index next : Index} (hindex : index.WellFormed hashing activation)
    (hviews : index.CursorsConsistent) (hheight : height = index.chain.tip.height)
    (hwrites : Writes hashing activation height scope index next)
    (c : ContractId) : (index.view c).AtTip (next.view c) := by
  induction hwrites with
  | refl => exact .refl _
  | @tail mid last hbefore hwrite ih =>
    have hview := hwrite.view (hindex.writes hbefore) c
    have htip : height = (mid.view c).tip.height := by
      rw [ih.tip]
      exact hheight
    rw [htip] at hview
    exact ih.trans (hview.atTip (hviews.writes hindex hbefore c))

theorem Store.ReachableBy.settled_applyBlock {hashing : Hashing}
    {store next : Store} {delta : BlockDelta} {result : ApplyBlockResult}
    (hstore : store.ReachableBy hashing AddsSettled) (hsettled : store.index.Settled)
    (happly : store.applyBlock hashing delta = .ok (result, next)) :
    next.index.Settled := by
  rcases applyBlock_ok happly with ⟨-, rfl⟩ | ⟨-, write, hextends, rfl⟩
  · exact hsettled
  have hindex := hstore.wellFormed
  have hheight := hextends.height
  have habove : store.activationAnchor.height ≤ store.chain.tip.height := hindex.linked.above
  have hperform : store.perform hashing (.applyBlock delta) =
      .ok (store.commitBlock hashing delta write) :=
    map_eq_ok.mpr ⟨_, happly, rfl⟩
  have hallowed : store.AddsSettled (.applyBlock delta) := hsettled
  have hnext : (store.commitBlock hashing delta write).ReachableBy hashing
      AddsSettled := .step hstore hallowed hperform
  have hwrites := hextends.writes (by omega) hindex.placed.exact
    hindex.placed.progress (hextends.fresh hindex)
  intro c record cursor hrecord hcatching hcursor
  have hopens : (store.index.view c).Opens ((store.index.openBlock hashing delta).view c) :=
    Index.view_openBlock hheight c
  have hopened := hindex.openBlock hheight hextends.shaped
  have hatTip := Index.Writes.atTip hopened
    (fun c => (hstore.cursorsConsistent c).opens (Index.view_openBlock hheight c)) rfl hwrites c
  rcases hatTip.catching record cursor hrecord hcatching hcursor with
    ⟨old, hold, hcatching', hcursor'⟩ | hpin
  · rw [hopens.record] at hold
    rw [hopens.cursor] at hcursor'
    have hbelow := ((hstore.cursorsConsistent c).cursored old cursor hold hcursor').next_le
    rcases hsettled c old cursor hold hcatching' hcursor' with
      hwaits | ⟨hle, block, hblock, hanchor⟩
    · -- the contract waited for this block, so it was promoted
      have hat : cursor.nextPosition.blockHeight = delta.anchor.height := by
        have htip : (store.index.view c).tip = store.chain.tip := rfl
        rw [htip] at hwaits hbelow
        omega
      cases (hextends.waiting hindex c record cursor hrecord hcatching hcursor hat).2
    · refine .inr ⟨?_, block, ?_, hanchor⟩
      · rw [hatTip.tip, hopens.tip]
        omega
      · rw [hatTip.blocks, hopens.blocks _ hle]
        exact hblock
  · have htip : cursor.pinnedTip = (store.commitBlock hashing delta write).chain.tip :=
      hpin.trans hatTip.tip.symm
    refine .inr ⟨?_, hnext.onBranch_of_tip hrecord hcatching hcursor htip⟩
    rw [htip]
    exact le_rfl

end DeadcatNode
