import DeadcatNode.BranchAnchors
import DeadcatNode.ContractCursors

/-!
# Pinned tips of late contracts

A cursor is pinned to the tip at which its contract was registered, and a replay
which reaches the pin moves it to the current tip.  A rollback can orphan the
pin.  As long as no block is added while a pin at the tip is orphaned, a contract
which is catching up never stands above its pin.
-/

namespace DeadcatNode

open Checked

namespace CursorView

variable {record : ContractRecord}

def OnBranch (view : CursorView) (cursor : BackfillProgress) : Prop :=
  ∃ block, view.blocks[cursor.pinnedTip.height]? = some block ∧ block.anchor = cursor.pinnedTip

/-- The cursor of a contract which is catching up stands at or below its pin,
and a pin below the tip is on the branch.  Every journalled cursor stood at or
below its pin. -/
structure Pinned (view : CursorView) : Prop where
  next_le : ∀ record cursor, view.record = some record →
    record.syncState.isCatchingUp = true → view.cursor = some cursor →
      cursor.nextPosition.blockHeight ≤ cursor.pinnedTip.height
  onBranch : ∀ record cursor, view.record = some record →
    record.syncState.isCatchingUp = true → view.cursor = some cursor →
      cursor.pinnedTip.height < view.tip.height → view.OnBranch cursor
  images : ∀ h item, some item ∈ view.cursors h → h ≤ item.pinnedTip.height

/-- A contract which is catching up waits for the next block, or its pin is on
the branch. -/
def Waiting (view : CursorView) : Prop :=
  ∀ record cursor, view.record = some record →
    record.syncState.isCatchingUp = true → view.cursor = some cursor →
      view.tip.height < cursor.nextPosition.blockHeight ∨
        cursor.pinnedTip.height ≤ view.tip.height ∧ view.OnBranch cursor

variable {view next : CursorView} {height : ℕ}

theorem Pinned.create (hview : view.Consistent) (hpinned : view.Pinned)
    (habsent : view.record = none) (records : ℕ → List (Option ContractRecord)) :
    Pinned { view with record := some record, records } := by
  have hcursor := (hview.absent habsent).1
  constructor
  · intro _ cursor _ _ hsome
    rw [hcursor] at hsome
    cases hsome
  · intro _ cursor _ _ hsome
    rw [hcursor] at hsome
    cases hsome
  · exact hpinned.images

theorem Pinned.register (hpinned : view.Pinned) {item : BackfillProgress}
    (hat : record.creationPosition.blockHeight = height)
    (hle : height ≤ view.tip.height) (hstarts : item.Starts view.tip record)
    (records : ℕ → List (Option ContractRecord)) :
    Pinned { view with
      record := some record
      cursor := some item
      records
      cursors := appendAt view.retained view.cursors height [none] } := by
  have hnext := hstarts.at_creation
  have hpin := hstarts.pinned
  constructor
  · intro _ cursor _ _ hsome
    cases hsome
    rw [hpin]
    omega
  · intro _ cursor _ _ hsome hbelow
    cases hsome
    rw [hpin] at hbelow
    exact absurd hbelow (lt_irrefl _)
  · intro h image hmem
    rcases mem_appendAt hmem with hold | ⟨-, hnew⟩
    · exact hpinned.images h image hold
    · cases List.mem_singleton.mp hnew

theorem Pinned.rewrite (hpinned : view.Pinned) {before after : ContractRecord}
    (hbefore : view.record = some before) (hsync : after.syncState = before.syncState)
    (records : ℕ → List (Option ContractRecord)) :
    Pinned { view with record := some after, records } := by
  constructor
  · intro record cursor hrecord hcatching hcursor
    cases hrecord
    rw [hsync] at hcatching
    exact hpinned.next_le before cursor hbefore hcatching hcursor
  · intro record cursor hrecord hcatching hcursor
    cases hrecord
    rw [hsync] at hcatching
    exact hpinned.onBranch before cursor hbefore hcatching hcursor
  · exact hpinned.images

theorem Pinned.advance (hpinned : view.Pinned) {before : ContractRecord}
    {syncState : ContractSyncState} {old item : BackfillProgress}
    (hbefore : view.record = some before) (hcatching : before.syncState.isCatchingUp = true)
    (hcursor : view.cursor = some old) (hat : old.nextPosition.blockHeight = height)
    (hnext : item.nextPosition.blockHeight = height + 1)
    (hpin : syncState.isCatchingUp = true → height < view.tip.height ∧
      ∃ block, view.blocks[height]? = some block ∧ (item.pinnedTip = view.tip ∨
          item.pinnedTip = old.pinnedTip ∧ old.pinnedTip ≠ block.anchor))
    (records : ℕ → List (Option ContractRecord)) :
    Pinned { view with
      record := some { before with syncState }
      cursor := some item
      records } := by
  have hle := hpinned.next_le before old hbefore hcatching hcursor
  constructor
  · intro record cursor hrecord hstill hsome
    cases hrecord
    cases hsome
    obtain ⟨hbelow, block, hblock, hmoved | ⟨hkept, hother⟩⟩ := hpin hstill
    · rw [hmoved, hnext]
      omega
    · rw [hkept, hnext]
      -- the old pin is another block, so it is not the one just replayed
      have hne : old.pinnedTip.height ≠ height := by
        intro hsame
        obtain ⟨block', hblock', hanchor⟩ := hpinned.onBranch before old hbefore
          hcatching hcursor (by omega)
        rw [hsame, hblock] at hblock'
        cases hblock'
        exact hother hanchor.symm
      omega
  · intro record cursor hrecord hstill hsome hbelow
    cases hrecord
    cases hsome
    obtain ⟨-, block, -, hmoved | ⟨hkept, -⟩⟩ := hpin hstill
    · rw [hmoved] at hbelow
      exact absurd hbelow (lt_irrefl _)
    · have hold := hpinned.onBranch before old hbefore hcatching hcursor (hkept ▸ hbelow)
      unfold OnBranch at hold ⊢
      rw [hkept]
      exact hold
  · exact hpinned.images

theorem Pinned.journal (hpinned : view.Pinned) {items : List BackfillProgress}
    (hitems : ∀ item ∈ items, view.cursor = some item ∧ item.nextPosition.blockHeight = height ∧
      (height ≤ item.pinnedTip.height ∨ ∃ record, view.record = some record ∧
        record.syncState.isCatchingUp = true)) :
    Pinned { view with
      cursors := appendAt view.retained view.cursors height (items.map some) } := by
  refine ⟨hpinned.next_le, hpinned.onBranch, ?_⟩
  intro h image hmem
  rcases mem_appendAt hmem with hold | ⟨rfl, hnew⟩
  · exact hpinned.images h image hold
  · obtain ⟨item, hitem, heq⟩ := List.mem_map.mp hnew
    cases heq
    obtain ⟨hcursor, hat, hle | ⟨record, hrecord, hcatching⟩⟩ := hitems image hitem
    · exact hle
    · have := hpinned.next_le record image hrecord hcatching hcursor
      omega

theorem Pinned.write (hview : view.Consistent) (hpinned : view.Pinned)
    (hwrite : Write height view next) : next.Pinned := by
  cases hwrite with
  | other => exact hpinned
  | create habsent => exact hpinned.create hview habsent _
  | register _ hat hle hstarts => exact hpinned.register hat hle hstarts _
  | rewrite hbefore _ hsync _ => exact hpinned.rewrite hbefore hsync _
  | advance hbefore hcatching hcursor hat hnext _ _ _ hpin =>
    exact hpinned.advance hbefore hcatching hcursor hat hnext hpin _
  | journal hitems => exact hpinned.journal hitems

theorem Pinned.opens (hpinned : view.Pinned) (hwaiting : view.Waiting)
    (hopens : view.Opens next) : next.Pinned := by
  constructor
  · rw [hopens.record, hopens.cursor]
    exact hpinned.next_le
  · rw [hopens.record, hopens.cursor, hopens.tip]
    intro record cursor hrecord hcatching hcursor hbelow
    have hle : cursor.pinnedTip.height ≤ view.tip.height := by omega
    have hnext := hpinned.next_le record cursor hrecord hcatching hcursor
    obtain ⟨block, hblock, hanchor⟩ : view.OnBranch cursor := by
      rcases hwaiting record cursor hrecord hcatching hcursor with
        habove | ⟨-, hon⟩
      · omega
      · exact hon
    exact ⟨block, (hopens.blocks _ hle).trans hblock, hanchor⟩
  · intro h item hmem
    rw [hopens.mem_cursors hmem] at hmem
    exact hpinned.images h item hmem

theorem Consistent.unwound_catching (hview : view.Consistent) (hunwinds : view.Unwinds next)
    {cursor : BackfillProgress} (hrecord : next.record = some record)
    (hcatching : record.syncState.isCatchingUp = true) (hcursor : next.cursor = some cursor) :
    (∃ old, view.record = some old ∧ old.syncState.isCatchingUp = true ∧
        view.cursor = some cursor) ∨
      some cursor ∈ view.cursors view.tip.height ∧
        cursor.nextPosition.blockHeight = view.tip.height := by
  cases hold : view.record with
  | none =>
    rw [hunwinds.record, ((hview.absent hold).2 _).1, hold] at hrecord
    cases hrecord
  | some old =>
    rcases hview.unwound_record hunwinds hold with
      ⟨-, hnone⟩ | ⟨hcreated, image, himage, -, hfrom⟩
    · rw [hrecord] at hnone
      cases hnone
    rw [hrecord] at himage
    cases himage
    cases hbefore : view.cursor with
    | none =>
      rw [hunwinds.cursor, hview.uncursored hbefore, hbefore] at hcursor
      cases hcursor
    | some before =>
      rcases hview.unwound_cursor hunwinds hold hbefore hcreated with
        ⟨-, hkept, hle⟩ | ⟨item, hmem, hback, hat, -⟩
      · rw [hcursor] at hkept
        cases hkept
        refine .inl ⟨old, rfl, ?_, rfl⟩
        rcases hfrom with hhead | ⟨-, rfl⟩
        · -- a ready contract has no image which is catching up
          by_contra hready
          have := (hview.cursored old cursor hold hbefore).settled
            (by simpa using hready) _ record hle hhead
          rw [hcatching] at this
          cases this
        · exact hcatching
      · rw [hcursor] at hback
        cases hback
        exact .inr ⟨hmem, hat⟩

theorem Pinned.unwinds (hview : view.Consistent) (hpinned : view.Pinned)
    (hunwinds : view.Unwinds next) : next.Pinned := by
  have htip := hunwinds.tip
  constructor
  · intro record cursor hrecord hcatching hcursor
    rcases hview.unwound_catching hunwinds hrecord hcatching hcursor with
      ⟨old, hold, hcatching', hcursor'⟩ | ⟨hmem, hat⟩
    · exact hpinned.next_le old cursor hold hcatching' hcursor'
    · rw [hat]
      exact hpinned.images _ cursor hmem
  · intro record cursor hrecord hcatching hcursor hbelow
    rcases hview.unwound_catching hunwinds hrecord hcatching hcursor with
      ⟨old, hold, hcatching', hcursor'⟩ | ⟨hmem, -⟩
    · obtain ⟨block, hblock, hanchor⟩ :=
        hpinned.onBranch old cursor hold hcatching' hcursor' (by omega)
      exact ⟨block, (hunwinds.blocks _ (by omega)).trans hblock, hanchor⟩
    · have := hpinned.images _ cursor hmem
      omega
  · intro h item hmem
    rw [(hunwinds.mem_cursors hmem).2] at hmem
    exact hpinned.images h item hmem

end CursorView

/-! ## Pins in the index -/

namespace Index

variable {hashing : Hashing} {activation : ChainAnchor} {index next : Index}

def PinsHold (index : Index) : Prop := ∀ c, (index.view c).Pinned

/-- No late contract would be left behind by a new block. -/
def Settled (index : Index) : Prop := ∀ c, (index.view c).Waiting

theorem pinsHold_atAnchor (anchor : ChainAnchor) : PinsHold ⟨.atAnchor anchor, ∅⟩ := by
  intro c
  have hrecord : ContractTables.empty.contracts[c]? = none := by simp [ContractTables.empty]
  constructor <;> simp [view, ChainTables.atAnchor, hrecord]

theorem pinsHold_invariant (hashing : Hashing) (activation : ChainAnchor) :
    Invariant hashing activation (fun index _ => index.Settled)
      fun index => index.CursorsConsistent ∧ index.PinsHold where
  atAnchor := ⟨cursorsConsistent_atAnchor activation, pinsHold_atAnchor activation⟩
  write hindex hboth hwrite := ⟨hboth.1.write hindex hwrite, fun c =>
    (hboth.2 c).write (hboth.1 c) (hwrite.view hindex c)⟩
  openBlock _ hboth hheight hsettled := ⟨fun c => (hboth.1 c).opens (view_openBlock hheight c),
    fun c => (hboth.2 c).opens (hsettled c) (view_openBlock hheight c)⟩
  unwind hindex hboth hunwinds := ⟨fun c => (hboth.1 c).unwinds (view_unwind hindex hunwinds c),
    fun c => (hboth.2 c).unwinds (hboth.1 c) (view_unwind hindex hunwinds c)⟩

end Index

/-- Blocks are only added while no late contract would be left behind. -/
def Store.AddsSettled (store : Store) : StoreOperation → Prop
  | .applyBlock _ => store.index.Settled
  | _ => True

theorem Store.ReachableBy.pinsHold {hashing : Hashing} {store : Store}
    (hstore : store.ReachableBy hashing AddsSettled) : store.index.PinsHold :=
  (hstore.invariant (Index.pinsHold_invariant hashing) fun hallowed _ => hallowed).2

end DeadcatNode
