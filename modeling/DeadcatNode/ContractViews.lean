import DeadcatNode.NodeStoreRestoration

/-!
# What the index holds about one contract

A registered contract has a scan cursor, and every move of the cursor is
journalled at the height it passes.  `CursorView` is what the index holds about
one contract: its record, its cursor, and their before-images in the retained
undo rows.  The invariant ties these together, so that taking blocks back never
leaves a cursor without its contract, and moves every cursor to the height of
the first block which was taken back.
-/

namespace DeadcatNode

open Checked

/-! ## Views of one contract -/

structure CursorView where
  tip : ChainAnchor
  blocks : Table ℕ StoredBlock
  record : Option ContractRecord
  cursor : Option BackfillProgress
  retained : ℕ → Bool
  records : ℕ → List (Option ContractRecord)
  cursors : ℕ → List (Option BackfillProgress)

/-- The before-images of a contract in an undo row, the oldest first. -/
def UndoBlock.recordImages (c : ContractId) (undo : UndoBlock) : List (Option ContractRecord) :=
  (undo.contractChanges.filter fun change => change.contractId = c).map ContractUndo.before

def UndoBlock.cursorImages (c : ContractId) (undo : UndoBlock) : List (Option BackfillProgress) :=
  (undo.backfillProgressChanges.filter fun change =>
    change.contractId = c).map BackfillProgressUndo.before

def Index.view (index : Index) (c : ContractId) : CursorView where
  tip := index.chain.tip
  blocks := index.chain.blocks
  record := index.chain.contractTables.contracts[c]?
  cursor := index.chain.backfillProgress[c]?
  retained h := (index.undoBlocks[h]?).isSome
  records h := (index.undoBlocks[h]?).elim [] (UndoBlock.recordImages c)
  cursors h := (index.undoBlocks[h]?).elim [] (UndoBlock.cursorImages c)

namespace CursorView

/-- Images with new ones at the end of one row, if the row is retained. -/
def appendAt {V : Type} (retained : ℕ → Bool) (images : ℕ → List (Option V))
    (height : ℕ) (new : List (Option V)) : ℕ → List (Option V) := fun h =>
  if h = height ∧ retained h = true then images h ++ new else images h

section

variable {V : Type} {retained : ℕ → Bool} {images : ℕ → List (Option V)}
  {height h : ℕ} {new : List (Option V)}

theorem mem_appendAt {v : Option V} (hmem : v ∈ appendAt retained images height new h) :
    v ∈ images h ∨ h = height ∧ v ∈ new := by
  unfold appendAt at hmem
  split at hmem
  · next hat => exact (List.mem_append.mp hmem).imp_right fun hnew => ⟨hat.1, hnew⟩
  · exact .inl hmem

theorem subset_appendAt {v : Option V} (hmem : v ∈ images h) :
    v ∈ appendAt retained images height new h := by
  unfold appendAt
  split
  · exact List.mem_append_left _ hmem
  · exact hmem

theorem appendAt_of_ne (hne : h ≠ height) : appendAt retained images height new h = images h := by
  unfold appendAt
  rw [if_neg fun hat => hne hat.1]

theorem appendAt_self (hretained : retained height = true) :
    appendAt retained images height new height = images height ++ new := by
  unfold appendAt
  rw [if_pos ⟨rfl, hretained⟩]

theorem head_appendAt {v : Option V}
    (hhead : (appendAt retained images height new h).head? = some v) :
    (images h).head? = some v ∨ h = height ∧ images h = [] ∧ new.head? = some v := by
  unfold appendAt at hhead
  split at hhead
  · next hat =>
    cases himages : images h with
    | nil => exact .inr ⟨hat.1, rfl, by simpa [himages] using hhead⟩
    | cons first rest => exact .inl (by simpa [himages] using hhead)
  · exact .inl hhead

theorem head_appendAt_of_head {v : Option V} (hhead : (images h).head? = some v) :
    (appendAt retained images height new h).head? = some v := by
  unfold appendAt
  split
  · rw [List.head?_append, hhead]
    rfl
  · exact hhead

theorem appendAt_nil : appendAt retained images height [] = images := by
  funext h
  simp [appendAt]

end

/-- What one write does to the view of a contract. -/
inductive Write (height : ℕ) (view : CursorView) : CursorView → Prop where
  | other : Write height view view
  | create {record : ContractRecord} (habsent : view.record = none)
      (hat : record.creationPosition.blockHeight = height) (hle : height ≤ view.tip.height) :
      Write height view { view with
        record := some record
        records := appendAt view.retained view.records height [none] }
  | register {record : ContractRecord} {item : BackfillProgress} (habsent : view.record = none)
      (hat : record.creationPosition.blockHeight = height) (hle : height ≤ view.tip.height)
      (hstarts : item.Starts view.tip record) :
      Write height view { view with
        record := some record
        cursor := some item
        records := appendAt view.retained view.records height [none]
        cursors := appendAt view.retained view.cursors height [none] }
  | rewrite {before after : ContractRecord} (hbefore : view.record = some before)
      (hcreation : after.creationPosition = before.creationPosition)
      (hsync : after.syncState = before.syncState)
      (hplace : height = view.tip.height ∨ before.syncState.isCatchingUp = true ∧
          ∃ cursor, view.cursor = some cursor ∧ cursor.nextPosition.blockHeight = height) :
      Write height view { view with
        record := some after
        records := appendAt view.retained view.records height [some before] }
  | advance {before : ContractRecord} {syncState : ContractSyncState}
      {old item : BackfillProgress} {journalled : List (Option ContractRecord)}
      (hbefore : view.record = some before) (hcatching : before.syncState.isCatchingUp = true)
      (hcursor : view.cursor = some old) (hat : old.nextPosition.blockHeight = height)
      (hnext : item.nextPosition.blockHeight = height + 1)
      (hjournalled : ∀ image ∈ journalled, image = some before)
      (hentered : view.retained height = true → some old ∈ view.cursors height)
      (hready : syncState.isCatchingUp = false → height = view.tip.height)
      (hpinned : syncState.isCatchingUp = true → height < view.tip.height ∧
        ∃ block, view.blocks[height]? = some block ∧ (item.pinnedTip = view.tip ∨
            item.pinnedTip = old.pinnedTip ∧ old.pinnedTip ≠ block.anchor)) :
      Write height view { view with
        record := some { before with syncState }
        cursor := some item
        records := appendAt view.retained view.records height journalled }
  | journal {items : List BackfillProgress}
      (hitems : ∀ item ∈ items, view.cursor = some item ∧ item.nextPosition.blockHeight = height ∧
        (height ≤ item.pinnedTip.height ∨ ∃ record, view.record = some record ∧
          record.syncState.isCatchingUp = true)) :
      Write height view { view with
        cursors := appendAt view.retained view.cursors height (items.map some) }

end CursorView

/-! ## The invariant -/

namespace CursorView

variable {record : ContractRecord} {before : ContractRecord} {h : ℕ}

/-- A contract which was created at a height: the rows below do not mention it,
the row of that height starts with its creation, and no other row creates it. -/
structure Dated (view : CursorView) (height : ℕ) : Prop where
  le_tip : height ≤ view.tip.height
  below : ∀ h < height, view.records h = [] ∧ view.cursors h = []
  head : view.retained height = true → (view.records height).head? = some none
  others : ∀ h, h ≠ height → none ∉ view.records h ∧ none ∉ view.cursors h
  images : ∀ h record, some record ∈ view.records h → record.creationPosition.blockHeight = height

/-- The cursor of a contract: every retained row it has passed holds an image of
it, and no row from it on has an image of the contract catching up once the
contract is ready. -/
structure Cursored (view : CursorView) (record : ContractRecord)
    (cursor : BackfillProgress) : Prop where
  created_le : record.creationPosition.blockHeight ≤ cursor.nextPosition.blockHeight
  next_le : cursor.nextPosition.blockHeight ≤ view.tip.height + 1
  head : view.retained record.creationPosition.blockHeight = true →
    (view.cursors record.creationPosition.blockHeight).head? = some none
  entered : ∀ h, record.creationPosition.blockHeight ≤ h →
    h < cursor.nextPosition.blockHeight → view.retained h = true →
      ∃ item, some item ∈ view.cursors h
  settled : record.syncState.isCatchingUp = false → ∀ h image, cursor.nextPosition.blockHeight ≤ h →
      (view.records h).head? = some (some image) → image.syncState.isCatchingUp = false

structure Consistent (view : CursorView) : Prop where
  above : ∀ h, view.tip.height < h →
    view.retained h = false ∧ view.records h = [] ∧ view.cursors h = []
  absent : view.record = none → view.cursor = none ∧ ∀ h, view.records h = [] ∧ view.cursors h = []
  dated : ∀ record, view.record = some record → view.Dated record.creationPosition.blockHeight
  uncursored : view.cursor = none → ∀ h, view.cursors h = []
  cursored : ∀ record cursor, view.record = some record →
    view.cursor = some cursor → view.Cursored record cursor
  entries : ∀ h item, some item ∈ view.cursors h → item.nextPosition.blockHeight = h ∧
      ∃ cursor, view.cursor = some cursor ∧ h ≤ cursor.nextPosition.blockHeight
  monotone : ∀ h image, (view.records h).head? = some (some image) →
    image.syncState.isCatchingUp = false →
      (∀ record, view.record = some record → record.syncState.isCatchingUp = false) ∧
      ∀ h' image', h < h' → (view.records h').head? = some (some image') →
        image'.syncState.isCatchingUp = false

variable {view next : CursorView} {height : ℕ}

theorem Consistent.above_appendAt (hview : view.Consistent) (images : List (Option ContractRecord))
    (cursors : List (Option BackfillProgress)) (h : ℕ) (habove : view.tip.height < h) :
    view.retained h = false ∧ appendAt view.retained view.records height images h = [] ∧
      appendAt view.retained view.cursors height cursors h = [] := by
  obtain ⟨hretained, hrecords, hcursors⟩ := hview.above h habove
  simp [appendAt, hretained, hrecords, hcursors]

theorem Consistent.create (hview : view.Consistent)
    (habsent : view.record = none) (hat : record.creationPosition.blockHeight = height)
    (hle : height ≤ view.tip.height) :
    Consistent { view with
      record := some record
      records := appendAt view.retained view.records height [none] } := by
  obtain ⟨hcursor, hempty⟩ := hview.absent habsent
  have hother : ∀ h, h ≠ height → appendAt view.retained view.records height [none] h = [] := by
    intro h hne
    rw [appendAt_of_ne hne, (hempty h).1]
  have hnone : ∀ h image, some image ∉ appendAt view.retained view.records height [none] h := by
    intro h image hmem
    rcases mem_appendAt hmem with hold | ⟨-, hnew⟩
    · rw [(hempty h).1] at hold
      cases hold
    · cases List.mem_singleton.mp hnew
  constructor
  case above =>
    intro h habove
    simpa [appendAt_nil] using hview.above_appendAt _ [] h habove
  case absent =>
    intro hrecord
    cases hrecord
  case dated =>
    intro other hother'
    cases hother'
    rw [hat]
    refine ⟨hle, ?_, ?_, ?_, ?_⟩
    · intro h hlt
      exact ⟨hother h (by omega), (hempty h).2⟩
    · intro hretained
      dsimp only
      rw [appendAt_self hretained, (hempty height).1]
      rfl
    · intro h hne
      dsimp only
      rw [hother h hne, (hempty h).2]
      exact ⟨List.not_mem_nil, List.not_mem_nil⟩
    · intro h image hmem
      exact absurd hmem (hnone h image)
  case uncursored => exact fun _ h => (hempty h).2
  case cursored =>
    intro other cursor _ hsome
    rw [hcursor] at hsome
    cases hsome
  case entries =>
    intro h item hitem
    dsimp only at hitem
    rw [(hempty h).2] at hitem
    cases hitem
  case monotone =>
    intro h image hhead
    exact absurd (List.mem_of_head? hhead) (hnone h image)

theorem Consistent.register (hview : view.Consistent)
    {item : BackfillProgress} (habsent : view.record = none)
    (hat : record.creationPosition.blockHeight = height)
    (hle : height ≤ view.tip.height) (hstarts : item.Starts view.tip record) :
    Consistent { view with
      record := some record
      cursor := some item
      records := appendAt view.retained view.records height [none]
      cursors := appendAt view.retained view.cursors height [none] } := by
  have hcreated := hview.create habsent hat hle
  obtain ⟨-, hempty⟩ := hview.absent habsent
  have hdated := hcreated.dated record rfl
  rw [hat] at hdated
  have hother : ∀ h, h ≠ height → appendAt view.retained view.cursors height [none] h = [] := by
    intro h hne
    rw [appendAt_of_ne hne, (hempty h).2]
  have hnone : ∀ h cursor, some cursor ∉ appendAt view.retained view.cursors height [none] h := by
    intro h cursor hmem
    rcases mem_appendAt hmem with hold | ⟨-, hnew⟩
    · rw [(hempty h).2] at hold
      cases hold
    · cases List.mem_singleton.mp hnew
  constructor
  case above => exact hview.above_appendAt _ _
  case absent =>
    intro hrecord
    cases hrecord
  case dated =>
    intro other hother'
    cases hother'
    rw [hat]
    refine ⟨hle, ?_, hdated.head, ?_, hdated.images⟩
    · intro h hlt
      exact ⟨(hdated.below h hlt).1, hother h (by omega)⟩
    · intro h hne
      refine ⟨(hdated.others h hne).1, ?_⟩
      dsimp only
      rw [hother h hne]
      exact List.not_mem_nil
  case uncursored =>
    intro hcursor
    cases hcursor
  case cursored =>
    intro other cursor hother' hcursor
    cases hother'
    cases hcursor
    have hnext := hstarts.at_creation
    rw [hat] at hnext
    constructor
    case created_le => rw [hat, hnext]
    case next_le =>
      dsimp only
      omega
    case head =>
      rw [hat]
      intro hretained
      dsimp only
      rw [appendAt_self hretained, (hempty height).2]
      rfl
    case entered =>
      intro h hge hlt
      omega
    case settled =>
      intro _ h image _ hhead
      rcases head_appendAt hhead with hold | ⟨-, -, hnew⟩
      · rw [(hempty h).1] at hold
        cases hold
      · cases hnew
  case entries =>
    intro h cursor hmem
    exact absurd hmem (hnone h cursor)
  case monotone => exact hcreated.monotone

theorem Consistent.creation_le (hview : view.Consistent) (hbefore : view.record = some before)
    (hplace : height = view.tip.height ∨ before.syncState.isCatchingUp = true ∧
        ∃ cursor, view.cursor = some cursor ∧ cursor.nextPosition.blockHeight = height) :
    before.creationPosition.blockHeight ≤ height := by
  rcases hplace with rfl | ⟨-, cursor, hcursor, rfl⟩
  · exact (hview.dated before hbefore).le_tip
  · exact (hview.cursored before cursor hbefore hcursor).created_le

theorem Dated.appendRecords {k : ℕ} (hdated : view.Dated k)
    {images : List (Option ContractRecord)} (hk : k ≤ height)
    (himages : ∀ image ∈ images, ∃ record, image = some record ∧
      record.creationPosition.blockHeight = k) (record : Option ContractRecord)
    (cursor : Option BackfillProgress) :
    Dated { view with
      record := record
      cursor := cursor
      records := appendAt view.retained view.records height images } k := by
  refine ⟨hdated.le_tip, ?_, ?_, ?_, ?_⟩
  · intro h hlt
    refine ⟨?_, (hdated.below h hlt).2⟩
    dsimp only
    rw [appendAt_of_ne (by omega), (hdated.below h hlt).1]
  · intro hretained
    exact head_appendAt_of_head (hdated.head hretained)
  · intro h hne
    refine ⟨?_, (hdated.others h hne).2⟩
    intro hmem
    rcases mem_appendAt hmem with hold | ⟨-, hnew⟩
    · exact (hdated.others h hne).1 hold
    · obtain ⟨image, hfalse, -⟩ := himages _ hnew
      cases hfalse
  · intro h image hmem
    rcases mem_appendAt hmem with hold | ⟨-, hnew⟩
    · exact hdated.images h image hold
    · obtain ⟨record', heq, hcreation⟩ := himages _ hnew
      cases heq
      exact hcreation

theorem Consistent.rewrite (hview : view.Consistent)
    {after : ContractRecord} (hbefore : view.record = some before)
    (hcreation : after.creationPosition = before.creationPosition)
    (hsync : after.syncState = before.syncState)
    (hplace : height = view.tip.height ∨ before.syncState.isCatchingUp = true ∧
        ∃ cursor, view.cursor = some cursor ∧ cursor.nextPosition.blockHeight = height) :
    Consistent { view with
      record := some after
      records := appendAt view.retained view.records height [some before] } := by
  have hk := hview.creation_le hbefore hplace
  constructor
  case above =>
    intro h habove
    simpa [appendAt_nil] using hview.above_appendAt _ [] h habove
  case absent =>
    intro hrecord
    cases hrecord
  case dated =>
    intro record hrecord
    cases hrecord
    rw [hcreation]
    refine (hview.dated before hbefore).appendRecords hk ?_ _ _
    intro image himage
    exact ⟨before, List.mem_singleton.mp himage, rfl⟩
  case uncursored => exact hview.uncursored
  case cursored =>
    intro record cursor hrecord hcursor
    cases hrecord
    have hold := hview.cursored before cursor hbefore hcursor
    constructor
    case created_le => exact hcreation ▸ hold.created_le
    case next_le => exact hold.next_le
    case head => exact hcreation ▸ hold.head
    case entered => exact hcreation ▸ hold.entered
    case settled =>
      rw [hsync]
      intro hready h image hnext hhead
      rcases head_appendAt hhead with hprevious | ⟨-, -, hnew⟩
      · exact hold.settled hready h image hnext hprevious
      · cases hnew
        exact hready
  case entries => exact hview.entries
  case monotone =>
    intro h image hhead hready
    have hcurrent : before.syncState.isCatchingUp = false := by
      rcases head_appendAt hhead with hold | ⟨-, -, hnew⟩
      · exact (hview.monotone h image hold hready).1 before hbefore
      · cases hnew
        exact hready
    constructor
    · intro record hrecord
      cases hrecord
      rw [hsync]
      exact hcurrent
    · intro h' image' hlt hhead'
      rcases head_appendAt hhead' with hold' | ⟨-, -, hnew⟩
      · rcases head_appendAt hhead with hold | ⟨hat, -, -⟩
        · exact (hview.monotone h image hold hready).2 h' image' hlt hold'
        · -- a ready contract is only written at the tip
          rcases hplace with htip | ⟨hcatching, -⟩
          · rw [(hview.above h' (by omega)).2.1] at hold'
            cases hold'
          · rw [hcurrent] at hcatching
            cases hcatching
      · cases hnew
        exact hcurrent

theorem Consistent.advance (hview : view.Consistent)
    {syncState : ContractSyncState} {old item : BackfillProgress}
    {journalled : List (Option ContractRecord)} (hbefore : view.record = some before)
    (hcatching : before.syncState.isCatchingUp = true) (hcursor : view.cursor = some old)
    (hat : old.nextPosition.blockHeight = height)
    (hnext : item.nextPosition.blockHeight = height + 1)
    (hjournalled : ∀ image ∈ journalled, image = some before)
    (hentered : view.retained height = true → some old ∈ view.cursors height)
    (hready : syncState.isCatchingUp = false → height = view.tip.height)
    (hpinned : syncState.isCatchingUp = true → height < view.tip.height) :
    Consistent { view with
      record := some { before with syncState }
      cursor := some item
      records := appendAt view.retained view.records height journalled } := by
  have hold := hview.cursored before old hbefore hcursor
  have hle : height ≤ view.tip.height := by
    cases hsync : syncState.isCatchingUp with
    | true => exact (hpinned hsync).le
    | false => exact (hready hsync).le
  -- a contract which is still catching up has no ready image in any row
  have hnever : ∀ h image, (view.records h).head? = some (some image) →
      image.syncState.isCatchingUp ≠ false := by
    intro h image hhead himage
    have := (hview.monotone h image hhead himage).1 before hbefore
    rw [hcatching] at this
    cases this
  constructor
  case above =>
    intro h habove
    simpa [appendAt_nil] using hview.above_appendAt _ [] h habove
  case absent =>
    intro hrecord
    cases hrecord
  case dated =>
    intro record hrecord
    cases hrecord
    refine (hview.dated before hbefore).appendRecords (hat ▸ hold.created_le) ?_ _ _
    intro image himage
    exact ⟨before, hjournalled image himage, rfl⟩
  case uncursored =>
    intro hnone
    cases hnone
  case cursored =>
    intro record cursor hrecord hcursor'
    cases hrecord
    cases hcursor'
    constructor
    case created_le =>
      have := hold.created_le
      dsimp only
      omega
    case next_le =>
      dsimp only
      omega
    case head => exact hold.head
    case entered =>
      intro h hge hlt hretained
      by_cases hpassed : h < height
      · exact hold.entered h hge (hat ▸ hpassed) hretained
      · obtain rfl : h = height := by omega
        exact ⟨old, hentered hretained⟩
    case settled =>
      intro hsync h image hpast hhead
      have htip := hready hsync
      dsimp only at hhead hpast
      rw [(hview.above_appendAt journalled [] h (by omega)).2.1] at hhead
      cases hhead
  case entries =>
    intro h cursor hmem
    obtain ⟨hheight, old', hold', hle'⟩ := hview.entries h cursor hmem
    rw [hcursor] at hold'
    cases hold'
    exact ⟨hheight, item, rfl, by omega⟩
  case monotone =>
    intro h image hhead himage
    rcases head_appendAt hhead with hprevious | ⟨-, -, hnew⟩
    · exact absurd himage (hnever h image hprevious)
    · have heq := hjournalled _ (List.mem_of_head? hnew)
      cases heq
      rw [hcatching] at himage
      cases himage

theorem Consistent.journal (hview : view.Consistent) {items : List BackfillProgress}
    (hitems : ∀ item ∈ items, view.cursor = some item ∧ item.nextPosition.blockHeight = height) :
    Consistent { view with
      cursors := appendAt view.retained view.cursors height (items.map some) } := by
  have hmem : ∀ {h : ℕ} {image : Option BackfillProgress},
      image ∈ appendAt view.retained view.cursors height (items.map some) h →
        image ∈ view.cursors h ∨ h = height ∧ ∃ item, image = some item ∧
          view.cursor = some item ∧ item.nextPosition.blockHeight = height := by
    intro h image himage
    refine (mem_appendAt himage).imp_right ?_
    rintro ⟨hat, hnew⟩
    obtain ⟨item, hitem, rfl⟩ := List.mem_map.mp hnew
    exact ⟨hat, item, rfl, hitems item hitem⟩
  -- without a cursor nothing is journalled
  have hsame : ∀ h, (view.cursor = none ∨ ∀ cursor, view.cursor = some cursor →
      h < cursor.nextPosition.blockHeight) →
      appendAt view.retained view.cursors height (items.map some) h = view.cursors h := by
    intro h hcases
    cases items with
    | nil => simp [appendAt]
    | cons item rest =>
      obtain ⟨hcursor, hat⟩ := hitems item List.mem_cons_self
      refine appendAt_of_ne ?_
      rcases hcases with hnone | hlt
      · rw [hcursor] at hnone
        cases hnone
      · have := hlt item hcursor
        omega
  constructor
  case above =>
    intro h habove
    simpa [appendAt_nil] using hview.above_appendAt [] _ h habove
  case absent =>
    intro hrecord
    obtain ⟨hcursor, hempty⟩ := hview.absent hrecord
    refine ⟨hcursor, fun h => ⟨(hempty h).1, ?_⟩⟩
    dsimp only
    rw [hsame h (.inl hcursor), (hempty h).2]
  case dated =>
    intro record hrecord
    have hdated := hview.dated record hrecord
    refine ⟨hdated.le_tip, ?_, hdated.head, ?_, hdated.images⟩
    · intro h hlt
      refine ⟨(hdated.below h hlt).1, ?_⟩
      dsimp only
      rw [hsame h, (hdated.below h hlt).2]
      cases hcursor : view.cursor with
      | none => exact .inl rfl
      | some cursor =>
        refine .inr fun cursor' hcursor' => ?_
        cases hcursor'
        have := (hview.cursored record cursor hrecord hcursor).created_le
        omega
    · intro h hne
      refine ⟨(hdated.others h hne).1, ?_⟩
      intro himage
      rcases hmem himage with hold | ⟨-, item, hfalse, -⟩
      · exact (hdated.others h hne).2 hold
      · cases hfalse
  case uncursored =>
    intro hcursor h
    dsimp only at hcursor ⊢
    rw [hsame h (.inl hcursor), hview.uncursored hcursor h]
  case cursored =>
    intro record cursor hrecord hcursor
    have hold := hview.cursored record cursor hrecord hcursor
    refine ⟨hold.created_le, hold.next_le, ?_, ?_, hold.settled⟩
    · intro hretained
      exact head_appendAt_of_head (hold.head hretained)
    · intro h hge hlt hretained
      obtain ⟨item, hitem⟩ := hold.entered h hge hlt hretained
      exact ⟨item, subset_appendAt hitem⟩
  case entries =>
    intro h item himage
    rcases hmem himage with hold | ⟨rfl, item', heq, hcursor, hat⟩
    · exact hview.entries h item hold
    · cases heq
      exact ⟨hat, item, hcursor, hat.ge⟩
  case monotone => exact hview.monotone

theorem Consistent.write (hview : view.Consistent)
    (hwrite : Write height view next) : next.Consistent := by
  cases hwrite with
  | other => exact hview
  | create habsent hat hle => exact hview.create habsent hat hle
  | register habsent hat hle hstarts =>
    exact hview.register habsent hat hle hstarts
  | rewrite hbefore hcreation hsync hplace =>
    exact hview.rewrite hbefore hcreation hsync hplace
  | advance hbefore hcatching hcursor hat hnext hjournalled hentered hready hpinned =>
    exact hview.advance hbefore hcatching hcursor hat hnext hjournalled
      hentered hready fun hsync => (hpinned hsync).1
  | journal hitems =>
    exact hview.journal fun item hitem => ⟨(hitems item hitem).1, (hitems item hitem).2.1⟩

/-! ## Opening and unwinding a block -/

/-- A block is opened on top; old rows may be pruned. -/
structure Opens (view next : CursorView) : Prop where
  tip : next.tip.height = view.tip.height + 1
  blocks : ∀ h ≤ view.tip.height, next.blocks[h]? = view.blocks[h]?
  record : next.record = view.record
  cursor : next.cursor = view.cursor
  rows : ∀ h, next.retained h = view.retained h ∧
      next.records h = view.records h ∧ next.cursors h = view.cursors h ∨
    (next.retained h = true → h = next.tip.height) ∧
      next.records h = [] ∧ next.cursors h = []

theorem Opens.kept (hopens : view.Opens next)
    (hle : h ≤ view.tip.height) (hretained : next.retained h = true) :
    view.retained h = true ∧ next.records h = view.records h ∧
      next.cursors h = view.cursors h := by
  have htip := hopens.tip
  rcases hopens.rows h with ⟨hsame, hrecords, hcursors⟩ | ⟨hnew, -⟩
  · exact ⟨hsame ▸ hretained, hrecords, hcursors⟩
  · have := hnew hretained
    omega

theorem Opens.mem_records (hopens : view.Opens next)
    {image : Option ContractRecord} (hmem : image ∈ next.records h) :
    next.records h = view.records h := by
  rcases hopens.rows h with ⟨-, hrecords, -⟩ | ⟨-, hempty, -⟩
  · exact hrecords
  · rw [hempty] at hmem
    cases hmem

theorem Opens.mem_cursors (hopens : view.Opens next)
    {image : Option BackfillProgress} (hmem : image ∈ next.cursors h) :
    next.cursors h = view.cursors h := by
  rcases hopens.rows h with ⟨-, -, hcursors⟩ | ⟨-, -, hempty⟩
  · exact hcursors
  · rw [hempty] at hmem
    cases hmem

theorem Opens.empty (hopens : view.Opens next)
    (hempty : view.records h = [] ∧ view.cursors h = []) :
    next.records h = [] ∧ next.cursors h = [] := by
  rcases hopens.rows h with ⟨-, hrecords, hcursors⟩ | ⟨-, hnone⟩
  · rw [hrecords, hcursors]
    exact hempty
  · exact hnone

theorem Consistent.opens (hview : view.Consistent) (hopens : view.Opens next) :
    next.Consistent := by
  have htip := hopens.tip
  have hhead : ∀ {h : ℕ} {image : Option ContractRecord},
      (next.records h).head? = some image → (view.records h).head? = some image := by
    intro h image hhead
    rw [← hopens.mem_records (List.mem_of_head? hhead)]
    exact hhead
  constructor
  case above =>
    intro h habove
    obtain ⟨hretained, hempty⟩ := hview.above h (by omega)
    refine ⟨?_, hopens.empty hempty⟩
    rcases hopens.rows h with ⟨hsame, -⟩ | ⟨hnew, -⟩
    · rw [hsame, hretained]
    · by_contra hcontra
      have := hnew (by simpa using hcontra)
      omega
  case absent =>
    rw [hopens.record, hopens.cursor]
    intro hrecord
    obtain ⟨hcursor, hempty⟩ := hview.absent hrecord
    exact ⟨hcursor, fun h => hopens.empty (hempty h)⟩
  case dated =>
    rw [hopens.record]
    intro record hrecord
    have hdated := hview.dated record hrecord
    have hle := hdated.le_tip
    refine ⟨by omega, fun h hlt => hopens.empty (hdated.below h hlt), ?_, ?_, ?_⟩
    · intro hretained
      obtain ⟨hold, hrecords, -⟩ := hopens.kept hle hretained
      rw [hrecords]
      exact hdated.head hold
    · intro h hne
      constructor
      · intro hmem
        rw [hopens.mem_records hmem] at hmem
        exact (hdated.others h hne).1 hmem
      · intro hmem
        rw [hopens.mem_cursors hmem] at hmem
        exact (hdated.others h hne).2 hmem
    · intro h image hmem
      rw [hopens.mem_records hmem] at hmem
      exact hdated.images h image hmem
  case uncursored =>
    rw [hopens.cursor]
    intro hcursor h
    rcases hopens.rows h with ⟨-, -, hcursors⟩ | ⟨-, -, hempty⟩
    · rw [hcursors, hview.uncursored hcursor h]
    · exact hempty
  case cursored =>
    rw [hopens.record, hopens.cursor]
    intro record cursor hrecord hcursor
    have hold := hview.cursored record cursor hrecord hcursor
    have hle := (hview.dated record hrecord).le_tip
    have hnext := hold.next_le
    refine ⟨hold.created_le, by omega, ?_, ?_, ?_⟩
    · intro hretained
      obtain ⟨hretained', -, hcursors⟩ := hopens.kept hle hretained
      rw [hcursors]
      exact hold.head hretained'
    · intro h hge hlt hretained
      obtain ⟨hretained', -, hcursors⟩ := hopens.kept (by omega) hretained
      rw [hcursors]
      exact hold.entered h hge hlt hretained'
    · intro hready h image hpast hhead'
      exact hold.settled hready h image hpast (hhead hhead')
  case entries =>
    rw [hopens.cursor]
    intro h item hmem
    rw [hopens.mem_cursors hmem] at hmem
    exact hview.entries h item hmem
  case monotone =>
    rw [hopens.record]
    intro h image hhead' hready
    obtain ⟨hcurrent, hlater⟩ := hview.monotone h image (hhead hhead') hready
    exact ⟨hcurrent, fun h' image' hlt hhead'' => hlater h' image' hlt (hhead hhead'')⟩

/-- The newest block is taken back: the oldest images in its row, if there are
any, become current. -/
structure Unwinds (view next : CursorView) : Prop where
  tip : next.tip.height + 1 = view.tip.height
  retained : view.retained view.tip.height = true
  blocks : ∀ h, h ≠ view.tip.height → next.blocks[h]? = view.blocks[h]?
  record : next.record = ((view.records view.tip.height).head?).getD view.record
  cursor : next.cursor = ((view.cursors view.tip.height).head?).getD view.cursor
  gone : next.retained view.tip.height = false ∧
    next.records view.tip.height = [] ∧ next.cursors view.tip.height = []
  rows : ∀ h, h ≠ view.tip.height → next.retained h = view.retained h ∧
    next.records h = view.records h ∧ next.cursors h = view.cursors h

theorem Unwinds.mem_records (hunwinds : view.Unwinds next)
    {image : Option ContractRecord} (hmem : image ∈ next.records h) :
    h ≠ view.tip.height ∧ next.records h = view.records h := by
  by_cases hat : h = view.tip.height
  · subst hat
    rw [hunwinds.gone.2.1] at hmem
    cases hmem
  · exact ⟨hat, (hunwinds.rows h hat).2.1⟩

theorem Unwinds.mem_cursors (hunwinds : view.Unwinds next)
    {image : Option BackfillProgress} (hmem : image ∈ next.cursors h) :
    h ≠ view.tip.height ∧ next.cursors h = view.cursors h := by
  by_cases hat : h = view.tip.height
  · subst hat
    rw [hunwinds.gone.2.2] at hmem
    cases hmem
  · exact ⟨hat, (hunwinds.rows h hat).2.2⟩

theorem Unwinds.empty (hunwinds : view.Unwinds next)
    (hempty : view.records h = [] ∧ view.cursors h = []) :
    next.records h = [] ∧ next.cursors h = [] := by
  by_cases hat : h = view.tip.height
  · subst hat
    exact hunwinds.gone.2
  · rw [(hunwinds.rows h hat).2.1, (hunwinds.rows h hat).2.2]
    exact hempty

theorem Consistent.unwound_record (hview : view.Consistent)
    (hunwinds : view.Unwinds next) (hrecord : view.record = some record) :
    record.creationPosition.blockHeight = view.tip.height ∧
        next.record = none ∨
      record.creationPosition.blockHeight < view.tip.height ∧ ∃ image, next.record = some image ∧
          image.creationPosition.blockHeight = record.creationPosition.blockHeight ∧
          ((view.records view.tip.height).head? = some (some image) ∨
            view.records view.tip.height = [] ∧ image = record) := by
  have hdated := hview.dated record hrecord
  have hle := hdated.le_tip
  have hnext := hunwinds.record
  rcases Nat.lt_or_eq_of_le hle with hlt | heq
  · refine .inr ⟨hlt, ?_⟩
    cases himages : view.records view.tip.height with
    | nil =>
      rw [himages, hrecord] at hnext
      exact ⟨record, hnext, rfl, .inr ⟨rfl, rfl⟩⟩
    | cons first rest =>
      have hmem : first ∈ view.records view.tip.height := by
        rw [himages]
        exact List.mem_cons_self
      cases first with
      | none => exact absurd hmem (hdated.others _ (by omega)).1
      | some image =>
        rw [himages] at hnext
        exact ⟨image, hnext, hdated.images _ image hmem, .inl rfl⟩
  · have hhead := hdated.head (heq ▸ hunwinds.retained)
    rw [heq] at hhead
    rw [hhead] at hnext
    exact .inl ⟨heq, hnext⟩

theorem Consistent.unwound_cursor (hview : view.Consistent) (hunwinds : view.Unwinds next)
    {cursor : BackfillProgress} (hrecord : view.record = some record)
    (hcursor : view.cursor = some cursor)
    (hcreated : record.creationPosition.blockHeight < view.tip.height) :
    (view.cursors view.tip.height = [] ∧ next.cursor = some cursor ∧
        cursor.nextPosition.blockHeight ≤ view.tip.height) ∨
      ∃ image, some image ∈ view.cursors view.tip.height ∧
        next.cursor = some image ∧
        image.nextPosition.blockHeight = view.tip.height ∧
        view.tip.height ≤ cursor.nextPosition.blockHeight := by
  have hdated := hview.dated record hrecord
  have hcursored := hview.cursored record cursor hrecord hcursor
  have hnext := hunwinds.cursor
  cases himages : view.cursors view.tip.height with
  | nil =>
    rw [himages, hcursor] at hnext
    refine .inl ⟨rfl, hnext, ?_⟩
    by_contra hpassed
    obtain ⟨item, hitem⟩ := hcursored.entered view.tip.height hcreated.le
      (by omega) hunwinds.retained
    rw [himages] at hitem
    cases hitem
  | cons first rest =>
    have hmem : first ∈ view.cursors view.tip.height := by
      rw [himages]
      exact List.mem_cons_self
    cases first with
    | none => exact absurd hmem (hdated.others _ (by omega)).2
    | some image =>
      obtain ⟨hat, cursor', hcursor', hle⟩ := hview.entries _ image hmem
      rw [hcursor] at hcursor'
      cases hcursor'
      rw [himages] at hnext
      exact .inr ⟨image, List.mem_cons_self, hnext, hat, hle⟩

/-- Nothing is left of a contract whose creation is taken back. -/
theorem Consistent.unwound_absent (hview : view.Consistent) (hunwinds : view.Unwinds next)
    (hnone : next.record = none) :
    next.cursor = none ∧ ∀ h, next.records h = [] ∧ next.cursors h = [] := by
  cases hrecord : view.record with
  | none =>
    obtain ⟨hcursor, hempty⟩ := hview.absent hrecord
    refine ⟨?_, fun h => hunwinds.empty (hempty h)⟩
    rw [hunwinds.cursor, (hempty _).2, hcursor]
    rfl
  | some record =>
    rcases hview.unwound_record hunwinds hrecord with ⟨heq, -⟩ | ⟨-, image, himage, -⟩
    · refine ⟨?_, fun h => ?_⟩
      · rw [hunwinds.cursor]
        cases hcursor : view.cursor with
        | none =>
          rw [hview.uncursored hcursor]
          rfl
        | some cursor =>
          have hhead := (hview.cursored record cursor hrecord hcursor).head
            (heq ▸ hunwinds.retained)
          rw [heq] at hhead
          rw [hhead]
          rfl
      · rcases lt_trichotomy h view.tip.height with hlt | rfl | hgt
        · exact hunwinds.empty ((hview.dated record hrecord).below h (by omega))
        · exact hunwinds.gone.2
        · exact hunwinds.empty (hview.above h hgt).2
    · rw [hnone] at himage
      cases himage

theorem Consistent.unwound_some (hview : view.Consistent) (hunwinds : view.Unwinds next)
    {image : ContractRecord} (himage : next.record = some image) :
    ∃ record, view.record = some record ∧
      record.creationPosition.blockHeight < view.tip.height ∧
      image.creationPosition.blockHeight = record.creationPosition.blockHeight ∧
      ((view.records view.tip.height).head? = some (some image) ∨
        view.records view.tip.height = [] ∧ image = record) := by
  cases hrecord : view.record with
  | none =>
    rw [hunwinds.record, ((hview.absent hrecord).2 _).1, hrecord] at himage
    cases himage
  | some record =>
    rcases hview.unwound_record hunwinds hrecord with ⟨-, hnone⟩ | ⟨hlt, image', hsame, hrest⟩
    · rw [himage] at hnone
      cases hnone
    · rw [himage] at hsame
      cases hsame
      exact ⟨record, rfl, hlt, hrest⟩

theorem Consistent.unwinds (hview : view.Consistent)
    (hunwinds : view.Unwinds next) : next.Consistent := by
  have htip := hunwinds.tip
  have hheadRecords : ∀ {h : ℕ} {image : Option ContractRecord},
      (next.records h).head? = some image →
        h < view.tip.height ∧ (view.records h).head? = some image := by
    intro h image hhead
    obtain ⟨hne, hsame⟩ := hunwinds.mem_records (List.mem_of_head? hhead)
    rw [hsame] at hhead
    refine ⟨?_, hhead⟩
    by_contra hge
    rw [(hview.above h (by omega)).2.1] at hhead
    cases hhead
  constructor
  case above =>
    intro h habove
    by_cases hat : h = view.tip.height
    · subst hat
      exact hunwinds.gone
    · obtain ⟨hretained, hrecords, hcursors⟩ := hunwinds.rows h hat
      rw [hretained, hrecords, hcursors]
      exact hview.above h (by omega)
  case absent => exact hview.unwound_absent hunwinds
  case dated =>
    intro image himage
    obtain ⟨record, hrecord, hlt, hcreated, -⟩ := hview.unwound_some hunwinds himage
    have hdated := hview.dated record hrecord
    rw [hcreated]
    refine ⟨by omega, fun h hlow => hunwinds.empty (hdated.below h hlow), ?_, ?_, ?_⟩
    · obtain ⟨hretained, hrecords, -⟩ := hunwinds.rows _ hlt.ne
      rw [hretained, hrecords]
      exact hdated.head
    · intro h hne
      constructor
      · intro hmem
        rw [(hunwinds.mem_records hmem).2] at hmem
        exact (hdated.others h hne).1 hmem
      · intro hmem
        rw [(hunwinds.mem_cursors hmem).2] at hmem
        exact (hdated.others h hne).2 hmem
    · intro h other hmem
      rw [(hunwinds.mem_records hmem).2] at hmem
      exact hdated.images h other hmem
  case uncursored =>
    intro hnone h
    cases himage : next.record with
    | none => exact ((hview.unwound_absent hunwinds himage).2 h).2
    | some image =>
      obtain ⟨record, hrecord, hlt, -⟩ := hview.unwound_some hunwinds himage
      cases hcursor : view.cursor with
      | none =>
        by_contra hsome
        obtain ⟨item, hitem⟩ := List.exists_mem_of_ne_nil _ hsome
        rw [(hunwinds.mem_cursors hitem).2, hview.uncursored hcursor h] at hitem
        cases hitem
      | some cursor =>
        rcases hview.unwound_cursor hunwinds hrecord hcursor hlt with
          ⟨-, hsome, -⟩ | ⟨before, -, hsome, -⟩
        all_goals
          rw [hnone] at hsome
          cases hsome
  case cursored =>
    intro image cursor' himage hcursor'
    obtain ⟨record, hrecord, hlt, hcreated, himages⟩ := hview.unwound_some hunwinds himage
    have hcursorless : view.cursor ≠ none := by
      intro hnone
      rw [hunwinds.cursor, hview.uncursored hnone, hnone] at hcursor'
      cases hcursor'
    obtain ⟨cursor, hcursor⟩ := Option.ne_none_iff_exists'.mp hcursorless
    have hold := hview.cursored record cursor hrecord hcursor
    have hentered : ∀ h, record.creationPosition.blockHeight ≤ h →
        h < cursor.nextPosition.blockHeight → next.retained h = true →
          ∃ item, some item ∈ next.cursors h := by
      intro h hge hlow hretained
      have hne : h ≠ view.tip.height := by
        rintro rfl
        rw [hunwinds.gone.1] at hretained
        cases hretained
      obtain ⟨hretained', -, hcursors⟩ := hunwinds.rows h hne
      rw [hcursors]
      exact hold.entered h hge hlow (hretained' ▸ hretained)
    -- the record is ready only if every later image in a row was
    have hready : image.syncState.isCatchingUp = false → record.syncState.isCatchingUp = false := by
      intro hready
      rcases himages with hfirst | ⟨-, rfl⟩
      · exact (hview.monotone _ image hfirst hready).1 record hrecord
      · exact hready
    have hhead : next.retained record.creationPosition.blockHeight = true →
        (next.cursors record.creationPosition.blockHeight).head? = some none := by
      obtain ⟨hretained, -, hcursors⟩ := hunwinds.rows _ hlt.ne
      rw [hretained, hcursors]
      exact hold.head
    rcases hview.unwound_cursor hunwinds hrecord hcursor hlt with
      ⟨-, hsame, hle⟩ | ⟨before, -, hsame, hat, hle⟩
    · rw [hcursor'] at hsame
      cases hsame
      refine ⟨hcreated ▸ hold.created_le, by omega, hcreated ▸ hhead, hcreated ▸ hentered, ?_⟩
      intro hcatching h other hpast hother
      exact hold.settled (hready hcatching) h other hpast (hheadRecords hother).2
    · rw [hcursor'] at hsame
      cases hsame
      refine ⟨by omega, by omega, hcreated ▸ hhead, ?_, ?_⟩
      · intro h hge hlow hretained
        exact hentered h (by omega) (by omega) hretained
      · intro _ h other hpast hother
        have := (hheadRecords hother).1
        omega
  case entries =>
    intro h item hmem
    obtain ⟨hne, hsame⟩ := hunwinds.mem_cursors hmem
    rw [hsame] at hmem
    obtain ⟨hat, cursor, hcursor, hle⟩ := hview.entries h item hmem
    have hlow : h < view.tip.height := by
      by_contra hge
      rw [(hview.above h (by omega)).2.2] at hmem
      cases hmem
    refine ⟨hat, ?_⟩
    cases hrecord : view.record with
    | none =>
      rw [(hview.absent hrecord).1] at hcursor
      cases hcursor
    | some record =>
      have hcreated : record.creationPosition.blockHeight < view.tip.height := by
        by_contra hge
        rw [((hview.dated record hrecord).below h (by omega)).2] at hmem
        cases hmem
      rcases hview.unwound_cursor hunwinds hrecord hcursor hcreated with
        ⟨-, hsame, -⟩ | ⟨before, -, hsame, hat', -⟩
      · exact ⟨cursor, hsame, hle⟩
      · exact ⟨before, hsame, by omega⟩
  case monotone =>
    intro h image hhead hready
    obtain ⟨hlow, hhead'⟩ := hheadRecords hhead
    obtain ⟨hcurrent, hlater⟩ := hview.monotone h image hhead' hready
    refine ⟨?_, fun h' image' hlt hother => hlater h' image' hlt (hheadRecords hother).2⟩
    intro current hcurrent'
    obtain ⟨record, hrecord, -, -, hfirst | ⟨-, rfl⟩⟩ := hview.unwound_some hunwinds hcurrent'
    · exact hlater _ current hlow hfirst
    · exact hcurrent current hrecord

end CursorView

end DeadcatNode
