import DeadcatNode.FirmQuoteOutcomes
import DeadcatNode.QuoteEngineRuns

/-!
# The lock of the inventory coordinator

One call at a time looks at the published scan or replaces it, and the outputs
of the published scan are stored in the book.  Every change of the allocations
raises the revision of the book.
-/

namespace DeadcatNode

open Checked ReservationBook

variable {latest : PublishedSnapshot}

/-! ## Allocation revisions -/

namespace ReservationBook

variable {crypto : ProviderCrypto} {book next : ReservationBook} {now : UnixMillis}

/-- What holds from one point to a later one: inventory is only added, and the
allocations are the same as long as the revision is. -/
structure Since (before after : ReservationBook) : Prop where
  revision : before.allocationRevision ≤ after.allocationRevision
  allocations : before.allocationRevision = after.allocationRevision →
    after.allocations = before.allocations
  inventory : ∀ (outpoint : OutPoint) (item : StoredInventoryItem),
    before.inventory[outpoint]? = some item → after.inventory[outpoint]? = some item

theorem Since.refl (book : ReservationBook) : Since book book :=
  ⟨le_rfl, fun _ => rfl, fun _ _ hitem => hitem⟩

theorem Since.trans {first second third : ReservationBook}
    (hfirst : Since first second) (hsecond : Since second third) : Since first third := by
  have hlow := hfirst.revision
  have hhigh := hsecond.revision
  constructor
  · exact hlow.trans hhigh
  · intro hrevision
    have hmiddle : first.allocationRevision = second.allocationRevision := by omega
    have hlast : second.allocationRevision = third.allocationRevision := by omega
    rw [hsecond.allocations hlast, hfirst.allocations hmiddle]
  · intro outpoint item hitem
    exact hsecond.inventory outpoint item (hfirst.inventory outpoint item hitem)

theorem Since.raised (hrevision : next.allocationRevision = book.allocationRevision + 1)
    (hinventory : next.inventory = book.inventory) : Since book next := by
  constructor
  · omega
  · intro hsame
    omega
  · intro outpoint item hitem
    rw [hinventory]
    exact hitem

theorem Transition.since (hstep : Transition crypto now book next) : Since book next := by
  cases hstep with
  | @imported item hvalid hnew hsequence =>
    refine ⟨le_rfl, fun _ => rfl, ?_⟩
    intro outpoint other hother
    have hne : item.outpoint ≠ outpoint := by
      intro heq
      rw [← heq, hnew] at hother
      cases hother
    simp only [afterImport, logged, Table.row_insert, if_neg hne]
    exact hother
  | created | released | committed => exact .raised rfl rfl
  | signed hrow hcommitted hbytes hsequence =>
    exact ⟨le_rfl, fun _ => rfl, fun _ _ hitem => hitem⟩

theorem Timed.since (htimed : Timed crypto now book next) : Since book next := by
  have hwrites : ∀ start finish, Writes crypto now start finish → Since start finish := by
    intro start finish hwrites
    induction hwrites with
    | refl => exact .refl start
    | tail _ hstep ih => exact ih.trans hstep.since
  rcases htimed with rfl | ⟨observed, hobserve, hrest⟩
  · exact .refl _
  · have hobserved : Since book observed := by
      rw [(observeTime_eq_ok.mp hobserve).2]
      exact ⟨le_rfl, fun _ => rfl, fun _ _ hitem => hitem⟩
    exact hobserved.trans (hwrites observed next hrest)

theorem Since.published {before after : ReservationBook} (hsince : Since before after)
    (hpublished : before.Published latest) : after.Published latest :=
  fun output hmem => hsince.inventory _ _ (hpublished output hmem)

theorem Since.availableOutputs {before after : ReservationBook} (hsince : Since before after)
    (hrevision : before.allocationRevision = after.allocationRevision)
    (latest : PublishedSnapshot) :
    after.availableOutputs latest = before.availableOutputs latest := by
  unfold ReservationBook.availableOutputs allocationState
  rw [hsince.allocations hrevision]

theorem foldlM_importItem_inventory {pending : List StoredInventoryItem} :
    ∀ {book next : ReservationBook}, (pending.map StoredInventoryItem.outpoint).Nodup →
      pending.foldlM (importItem now) book = .ok next →
      (∀ item ∈ pending, next.inventory[item.outpoint]? = some item) ∧
      ∀ outpoint ∉ pending.map StoredInventoryItem.outpoint,
        next.inventory[outpoint]? = book.inventory[outpoint]? := by
  induction pending with
  | nil =>
    intro book next _ hfold
    simp only [List.foldlM_nil, pure_eq_ok] at hfold
    rw [hfold]
    exact ⟨fun item hitem => (by cases hitem), fun _ _ => rfl⟩
  | cons first rest ih =>
    intro book next hnodup hfold
    simp only [List.foldlM_cons, bind_eq_ok, importItem_eq_ok] at hfold
    obtain ⟨mid, ⟨-, rfl⟩, hrest⟩ := hfold
    obtain ⟨hfirst, hnodup⟩ := List.nodup_cons.mp hnodup
    obtain ⟨hstored, hothers⟩ := ih hnodup hrest
    constructor
    · intro item hitem
      rcases List.mem_cons.mp hitem with rfl | hitem
      · rw [hothers _ hfirst]
        simp [afterImport, logged]
      · exact hstored item hitem
    · intro outpoint houtpoint
      rw [List.map_cons, List.mem_cons, not_or] at houtpoint
      rw [hothers outpoint houtpoint.2]
      simp [afterImport, logged, Ne.symm houtpoint.1]

theorem pendingInventory_agrees {items : List InventoryItem} {pending : List StoredInventoryItem}
    (hpending : book.pendingInventory items = .ok pending) :
    ∀ item ∈ items, ∀ existing, book.inventory[item.val.outpoint]? = some existing →
      existing = item.val := by
  intro item hitem existing hexisting
  obtain ⟨before, after, hstep⟩ := foldlM_step_of_mem hpending hitem
  simp only [hexisting, bind_eq_ok, require_eq_ok] at hstep
  obtain ⟨-, hsame, -⟩ := hstep
  exact hsame

theorem importInventoryBatch_published {snapshot : InventorySnapshot} {generation count : ℕ}
    (himport : (book.importInventoryBatch
      (snapshot.outputs.map WalletOwnedOutput.item) now).1 = .ok count) :
    (book.importInventoryBatch (snapshot.outputs.map WalletOwnedOutput.item) now).2.Published
        (snapshot.publish generation now) := by
  unfold importInventoryBatch at himport ⊢
  split at himport
  · cases himport
  · next hnone =>
    obtain ⟨observed, hobserve, hwrite⟩ := timedWrite_eq_ok himport
    simp only [bind_eq_ok, pure_eq_ok, Prod.mk.injEq] at hwrite
    obtain ⟨pending, hpending, final, hfold, -, hfinal⟩ := hwrite
    rw [← hfinal]
    obtain ⟨hnodup, -⟩ := firstDuplicate_eq_none hnone
    have hpendingNodup : (pending.map StoredInventoryItem.outpoint).Nodup := by
      rw [pendingInventory_eq hpending, List.map_map]
      exact hnodup.sublist (List.filter_sublist.map _)
    obtain ⟨hstored, hothers⟩ := foldlM_importItem_inventory hpendingNodup hfold
    intro output houtput
    have hitem : output.item ∈ snapshot.outputs.map WalletOwnedOutput.item :=
      List.mem_map_of_mem houtput
    cases hrow : observed.inventory[output.item.val.outpoint]? with
    | none =>
      apply hstored output.item.val
      rw [pendingInventory_eq hpending, List.mem_map]
      refine ⟨output.item, ?_, rfl⟩
      rw [List.mem_filter, decide_eq_true_eq]
      exact ⟨hitem, hrow⟩
    | some existing =>
      have hsame := pendingInventory_agrees hpending output.item hitem existing hrow
      rw [hsame] at hrow
      -- A pending item was not stored, so it has another outpoint.
      have hnotPending : output.outpoint ∉ pending.map StoredInventoryItem.outpoint := by
        intro hmem
        rw [pendingInventory_eq hpending, List.map_map] at hmem
        obtain ⟨other, hother, heq⟩ := List.mem_map.mp hmem
        rw [List.mem_filter, decide_eq_true_eq] at hother
        have houtpoint : other.val.outpoint = output.item.val.outpoint := heq
        rw [houtpoint, hrow] at hother
        cases hother.2
      rw [hothers output.outpoint hnotPending]
      exact hrow

end ReservationBook

/-! ## The lock of the coordinator -/

section Lock

variable {identity : ProviderIdentity} {E : Type} {crypto : ProviderCrypto}
  {config : EngineConfig identity} {coordinator : CoordinatorState}
  {book : ReservationBook} {now : UnixMillis} {answers : EngineAnswers crypto E}

def EngineCall.snapshot? : EngineCall E → Option PublishedSnapshot
  | .firmQuote _ (.intersecting _ latest) | .firmQuote _ (.comparing _ _ latest)
  | .firmQuote _ (.reserving _ _ latest) | .eligible (.intersecting latest) =>
    some latest
  | _ => none

theorem EngineCall.holdsLock_of_snapshot? {call : EngineCall E}
    (hsnapshot : call.snapshot? = some latest) : call.holdsLock = true := by
  unfold snapshot? at hsnapshot
  split at hsnapshot
  · rfl
  · rfl
  · rfl
  · rfl
  · cases hsnapshot

theorem EngineCall.advance_holdsLock {call : EngineCall E}
    (hholds : (call.advance crypto config coordinator book now answers).1.holdsLock =
      true) : call.holdsLock = true ∨ call.awaitsLock = true := by
  cases call with
  | firmQuote input progress =>
    cases progress with
    | preflight =>
      simp only [advance, QuoteProgress.advance, QuoteInput.preflight] at hholds
      repeat' split at hholds
      all_goals cases hholds
    | expiring =>
      simp only [advance, QuoteProgress.advance, QuoteInput.expire] at hholds
      repeat' split at hholds
      all_goals cases hholds
    | drafting pair eligible =>
      simp only [advance, QuoteProgress.advance, QuoteInput.draft] at hholds
      repeat' split at hholds
      all_goals cases hholds
    | reading | submitting => exact .inr rfl
    | intersecting | admitting | comparing | reserving => exact .inl rfl
    | done | lost => cases hholds
  | refresh progress =>
    cases progress with
    | scanning => exact .inr rfl
    | importing | publishing => exact .inl rfl
    | done | lost => cases hholds
  | eligible progress =>
    cases progress with
    | reading => exact .inr rfl
    | intersecting latest => exact .inl rfl
    | done | lost => cases hholds

theorem EngineCall.advance_snapshot? {call : EngineCall E}
    (hsnapshot : (call.advance crypto config coordinator book now
      answers).1.snapshot? = some latest) :
    (call.snapshot? = some latest ∨ coordinator.latest = some latest) ∧
      (call.advance crypto config coordinator book now answers).2.2 =
        coordinator := by
  cases call with
  | firmQuote input progress =>
    refine ⟨?_, rfl⟩
    cases progress with
    | preflight =>
      simp only [advance, QuoteProgress.advance, QuoteInput.preflight] at hsnapshot
      repeat' split at hsnapshot
      all_goals cases hsnapshot
    | expiring =>
      simp only [advance, QuoteProgress.advance, QuoteInput.expire] at hsnapshot
      repeat' split at hsnapshot
      all_goals cases hsnapshot
    | reading =>
      right
      simp only [advance, QuoteProgress.advance, QuoteInput.read] at hsnapshot
      split at hsnapshot
      · cases hsnapshot
      · split at hsnapshot
        · cases hsnapshot
        · next hfresh =>
          cases hsnapshot
          exact (requireFresh_eq_ok.mp hfresh).2.1
    | intersecting pair held =>
      simp only [advance, QuoteProgress.advance, QuoteInput.intersect] at hsnapshot
      split at hsnapshot <;> cases hsnapshot
    | drafting pair eligible =>
      simp only [advance, QuoteProgress.advance, QuoteInput.draft] at hsnapshot
      split at hsnapshot <;> cases hsnapshot
    | submitting eligible draft =>
      simp only [advance, QuoteProgress.advance, QuoteInput.submit] at hsnapshot
      repeat' split at hsnapshot
      all_goals cases hsnapshot
    | admitting eligible draft =>
      right
      simp only [advance, QuoteProgress.advance, QuoteInput.admission] at hsnapshot
      split at hsnapshot
      · cases hsnapshot
      · next hfresh =>
        split at hsnapshot
        · cases hsnapshot
        · cases hsnapshot
          exact (requireFresh_eq_ok.mp hfresh).2.1
    | comparing eligible draft held =>
      left
      simp only [advance, QuoteProgress.advance, QuoteInput.compare] at hsnapshot
      split at hsnapshot
      · cases hsnapshot
      · split at hsnapshot
        · cases hsnapshot
        · exact hsnapshot
    | reserving | done | lost => cases hsnapshot
  | refresh progress => cases hsnapshot
  | eligible progress =>
    refine ⟨?_, rfl⟩
    cases progress with
    | reading =>
      right
      simp only [advance, ReadProgress.advance] at hsnapshot
      split at hsnapshot
      · cases hsnapshot
      · next hfresh =>
        cases hsnapshot
        exact (requireFresh_eq_ok.mp hfresh).2.1
    | intersecting | done | lost => cases hsnapshot

/-- A scan under way continues the generations of the coordinator. -/
def EngineCall.ScanSound (coordinator : CoordinatorState)
    (book : ReservationBook) : EngineCall E → Prop
  | .refresh (.importing _ generation) => generation = coordinator.generation + 1
  | .refresh (.publishing published) =>
    published.token.generation = coordinator.generation + 1 ∧ book.Published published
  | _ => True

/-- What a call does to the coordinator. -/
inductive CoordinatorStep (book : ReservationBook) (coordinator : CoordinatorState) :
    CoordinatorState → Prop where
  | same : CoordinatorStep book coordinator coordinator
  | dropped : CoordinatorStep book coordinator { coordinator with latest := none }
  | published (published : PublishedSnapshot) (hbook : book.Published published)
      (hgeneration : published.token.generation = coordinator.generation + 1) :
      CoordinatorStep book coordinator ⟨published.token.generation, some published⟩

theorem EngineCall.advance_coordinator {call : EngineCall E}
    (hsound : call.ScanSound coordinator book) :
    CoordinatorStep book coordinator (call.advance crypto config coordinator book now answers).2.2 ∧
      ((call.advance crypto config coordinator book now answers).2.2 ≠ coordinator →
        call.holdsLock = true ∨ call.awaitsLock = true) := by
  cases call with
  | firmQuote | eligible => exact ⟨.same, fun hne => absurd rfl hne⟩
  | refresh progress =>
    cases progress with
    | scanning =>
      refine ⟨?_, fun _ => .inr rfl⟩
      simp only [advance, RefreshProgress.advance]
      split
      · exact .same
      · split
        · exact .dropped
        · exact .dropped
    | importing snapshot generation =>
      refine ⟨?_, fun _ => .inl rfl⟩
      simp only [advance, RefreshProgress.advance]
      split <;> exact .same
    | publishing published =>
      refine ⟨?_, fun _ => .inl rfl⟩
      simp only [advance, RefreshProgress.advance]
      split
      · exact .same
      · exact .published published hsound.2 hsound.1
    | done | lost => exact ⟨.same, fun hne => absurd rfl hne⟩

theorem EngineCall.advance_scanSound {call : EngineCall E}
    (hsound : call.ScanSound coordinator book) :
    (call.advance crypto config coordinator book now answers).1.ScanSound
      (call.advance crypto config coordinator book now answers).2.2
      (call.advance crypto config coordinator book now answers).2.1 := by
  cases call with
  | firmQuote input progress => trivial
  | eligible progress => trivial
  | refresh progress =>
    cases progress with
    | scanning =>
      simp only [advance, RefreshProgress.advance]
      split
      · trivial
      · next snapshot hsnapshot =>
        split
        · trivial
        · next generation hadmit =>
          simp only [InventorySnapshot.admission, bind_eq_ok, okOr_eq_ok,
            checkedAdd_eq_some] at hadmit
          obtain ⟨-, -, -, -, hgeneration, -⟩ := hadmit
          exact hgeneration.symm
    | importing snapshot generation =>
      simp only [advance, RefreshProgress.advance]
      split
      · trivial
      · next count himport =>
        exact ⟨hsound, importInventoryBatch_published himport⟩
    | publishing published =>
      simp only [advance, RefreshProgress.advance]
      split <;> trivial
    | done result => trivial
    | lost => trivial

end Lock

/-! ## The invariant of the coordinator -/

namespace EngineSystem

variable {identity : ProviderIdentity} {E : Type} {crypto : ProviderCrypto}
  {system : EngineSystem identity E}

/-- One call holds the lock, the scan it looks at is the latest one, and the
outputs of the latest scan are stored. -/
structure Coordinated (system : EngineSystem identity E) : Prop where
  exclusive : ∀ (index other : ℕ) (call call' : EngineCall E),
    system.calls[index]? = some call → system.calls[other]? = some call' →
    call.holdsLock = true → call'.holdsLock = true → index = other
  held : ∀ (index : ℕ) (call : EngineCall E) (latest : PublishedSnapshot),
    system.calls[index]? = some call → call.snapshot? = some latest →
    system.coordinator.latest = some latest
  latest : ∀ latest, system.coordinator.latest = some latest →
    system.book.Published latest ∧ latest.token.generation = system.coordinator.generation
  scans : ∀ (index : ℕ) (call : EngineCall E), system.calls[index]? = some call →
    call.ScanSound system.coordinator system.book

theorem Coordinated.not_lock (hsystem : system.Coordinated) {index other : ℕ}
    {call call' : EngineCall E} (hcall : system.calls[index]? = some call)
    (hother : system.calls[other]? = some call') (hne : other ≠ index)
    (hlock : ¬(call.awaitsLock ∧ system.locked)) (hholds : call'.holdsLock = true) :
    ¬(call.holdsLock = true ∨ call.awaitsLock = true) := by
  have hlocked : system.locked = true := by
    unfold locked
    exact List.any_eq_true.mpr ⟨call', List.mem_of_getElem? hother, hholds⟩
  intro hcase
  rcases hcase with hown | hawaits
  · exact hne (hsystem.exclusive other index call' call hother hcall hholds hown)
  · exact hlock ⟨hawaits, hlocked⟩

theorem Coordinated.book (hsystem : system.Coordinated) {next : ReservationBook}
    (hsince : Since system.book next) : Coordinated { system with book := next } := by
  constructor
  · exact hsystem.exclusive
  · exact hsystem.held
  · intro latest hlatest
    obtain ⟨hpublished, hgeneration⟩ := hsystem.latest latest hlatest
    exact ⟨hsince.published hpublished, hgeneration⟩
  · intro index call hcall
    have hsound := hsystem.scans index call hcall
    unfold EngineCall.ScanSound at hsound ⊢
    split at hsound
    · exact hsound
    · exact ⟨hsound.1, hsince.published hsound.2⟩
    · trivial

theorem getElem?_set_eq_some {calls : List (EngineCall E)} {index other : ℕ}
    {next call : EngineCall E} (hcall : (calls.set index next)[other]? = some call) :
    other = index ∧ call = next ∨ other ≠ index ∧ calls[other]? = some call := by
  rw [List.getElem?_set] at hcall
  by_cases hcase : index = other
  · left
    rw [if_pos hcase] at hcall
    split at hcall
    · exact ⟨hcase.symm, (Option.some.inj hcall).symm⟩
    · cases hcall
  · right
    rw [if_neg hcase] at hcall
    exact ⟨Ne.symm hcase, hcall⟩

theorem Coordinated.advance (hsystem : system.Coordinated) {index : ℕ}
    {call : EngineCall E} (hcall : system.calls[index]? = some call)
    (hlock : ¬(call.awaitsLock ∧ system.locked)) (now : UnixMillis)
    (answers : EngineAnswers crypto E) :
    (system.step (.advance index now answers)).Coordinated := by
  rw [step_advance hcall hlock]
  have hsound := hsystem.scans index call hcall
  -- What the step does to the call, the coordinator and the book.
  have hstep : CoordinatorStep system.book system.coordinator (call.advance crypto
      system.config system.coordinator system.book now answers).2.2 :=
    (EngineCall.advance_coordinator hsound).1
  have hkept : ∀ (other : ℕ) (call' : EngineCall E), other ≠ index →
      system.calls[other]? = some call' → call'.holdsLock = true →
      (call.advance crypto system.config system.coordinator system.book now
        answers).2.2 = system.coordinator := by
    intro other call' hne hother hholds
    by_contra hcase
    exact hsystem.not_lock hcall hother hne hlock hholds
      ((EngineCall.advance_coordinator hsound).2 hcase)
  have hholder : ∀ (other : ℕ) (call' : EngineCall E), other ≠ index →
      system.calls[other]? = some call' → call'.holdsLock = true →
      (call.advance crypto system.config system.coordinator system.book now
        answers).1.holdsLock ≠ true := by
    intro other call' hne hother hholds hnext
    exact hsystem.not_lock hcall hother hne hlock hholds (EngineCall.advance_holdsLock hnext)
  have hsnapshot : ∀ latest, (call.advance crypto system.config system.coordinator
      system.book now answers).1.snapshot? = some latest →
      (call.advance crypto system.config system.coordinator system.book now
        answers).2.2.latest = some latest := by
    intro latest hnext
    obtain ⟨hsource, hsame⟩ := EngineCall.advance_snapshot? hnext
    rw [hsame]
    rcases hsource with hheld | htaken
    · exact hsystem.held index call latest hcall hheld
    · exact htaken
  have hnextSound : (call.advance crypto system.config system.coordinator system.book
      now answers).1.ScanSound
        (call.advance crypto system.config system.coordinator system.book now answers).2.2
        (call.advance crypto system.config system.coordinator system.book now answers).2.1 :=
    EngineCall.advance_scanSound hsound
  have hsince : Since system.book (call.advance crypto system.config
      system.coordinator system.book now answers).2.1 := by
    rcases call.advance_operates with hsame | ⟨operation, hoperation⟩
    · rw [hsame]
      exact .refl _
    · rw [hoperation]
      exact (apply_timed operation).since
  generalize call.advance crypto system.config system.coordinator system.book now
    answers = after at hstep hkept hholder hsnapshot hnextSound hsince ⊢
  obtain ⟨next, book, coordinator⟩ := after
  dsimp only at hstep hkept hholder hsnapshot hnextSound hsince ⊢
  constructor
  · intro first second call' call'' hfirst hsecond hholds hholds'
    rcases getElem?_set_eq_some hfirst with ⟨rfl, rfl⟩ | ⟨hne, hbefore⟩
    · rcases getElem?_set_eq_some hsecond with ⟨rfl, rfl⟩ | ⟨hne', hsecond⟩
      · rfl
      · exact absurd hholds (hholder second call'' hne' hsecond hholds')
    · rcases getElem?_set_eq_some hsecond with ⟨rfl, rfl⟩ | ⟨hne', hsecond⟩
      · exact absurd hholds' (hholder first call' hne hbefore hholds)
      · exact hsystem.exclusive first second call' call'' hbefore hsecond hholds hholds'
  · intro other call' latest hother hlatest
    rcases getElem?_set_eq_some hother with ⟨rfl, rfl⟩ | ⟨hne, hother⟩
    · exact hsnapshot latest hlatest
    · have hholds := EngineCall.holdsLock_of_snapshot? hlatest
      have hsame := hkept other call' hne hother hholds
      rw [hsame]
      exact hsystem.held other call' latest hother hlatest
  · intro latest hlatest
    cases hstep with
    | same =>
      obtain ⟨hpublished, hgeneration⟩ := hsystem.latest latest hlatest
      exact ⟨hsince.published hpublished, hgeneration⟩
    | dropped => cases hlatest
    | published published hbook hgeneration =>
      cases hlatest
      exact ⟨hsince.published hbook, rfl⟩
  · intro other call' hother
    rcases getElem?_set_eq_some hother with ⟨rfl, rfl⟩ | ⟨hne, hother⟩
    · exact hnextSound
    · have hold := hsystem.scans other call' hother
      by_cases hholds : call'.holdsLock = true
      · have hsame := hkept other call' hne hother hholds
        simp only [hsame]
        unfold EngineCall.ScanSound at hold ⊢
        split at hold
        · exact hold
        · exact ⟨hold.1, hsince.published hold.2⟩
        · trivial
      · -- Only a scan under the lock has something to say.
        unfold EngineCall.ScanSound
        split
        · exact absurd rfl hholds
        · exact absurd rfl hholds
        · trivial

theorem Coordinated.step (hsystem : system.Coordinated)
    (event : EngineEvent crypto identity E) : (system.step event).Coordinated := by
  cases event with
  | operation operation now => exact hsystem.book (apply_timed operation).since
  | call request =>
    -- A call which starts neither holds the lock nor looks at a scan.
    have hstart : ∀ (index : ℕ) (call : EngineCall E),
        (system.calls ++ [request.start])[index]? = some call →
        system.calls[index]? = some call ∨ call = request.start := by
      intro index call hcall
      by_cases hindex : index < system.calls.length
      · rw [List.getElem?_append_left hindex] at hcall
        exact .inl hcall
      · rw [List.getElem?_append_right (not_lt.mp hindex)] at hcall
        exact .inr (List.mem_singleton.mp (List.mem_of_getElem? hcall))
    have hfree : (request.start : EngineCall E).holdsLock = false := by
      cases request <;> rfl
    constructor
    · intro index other call call' hcall hcall' hholds hholds'
      rcases hstart index call hcall with hold | rfl
      · rcases hstart other call' hcall' with hold' | rfl
        · exact hsystem.exclusive index other call call' hold hold' hholds hholds'
        · rw [hfree] at hholds'
          cases hholds'
      · rw [hfree] at hholds
        cases hholds
    · intro index call latest hcall hlatest
      rcases hstart index call hcall with hold | rfl
      · exact hsystem.held index call latest hold hlatest
      · have hholds := EngineCall.holdsLock_of_snapshot? hlatest
        rw [hfree] at hholds
        cases hholds
    · exact hsystem.latest
    · intro index call hcall
      rcases hstart index call hcall with hold | rfl
      · exact hsystem.scans index call hold
      · cases request <;> trivial
  | advance index now answers =>
    cases hcall : system.calls[index]? with
    | none =>
      simp only [EngineSystem.step, hcall]
      exact hsystem
    | some call =>
      by_cases hlock : call.awaitsLock ∧ system.locked
      · simp only [EngineSystem.step, hcall, if_pos hlock]
        exact hsystem
      · exact hsystem.advance hcall hlock now answers
  | restart config =>
    have hstopped : ∀ (index : ℕ) (call : EngineCall E),
        (system.calls.map EngineCall.stop)[index]? = some call →
        call.holdsLock = false ∧ call.ScanSound {} system.book := by
      intro index call hcall
      rw [List.getElem?_map] at hcall
      obtain ⟨before, -, rfl⟩ := Option.map_eq_some_iff.mp hcall
      unfold EngineCall.stop
      split <;> exact ⟨rfl, trivial⟩
    constructor
    · intro index other call call' hcall hcall' hholds hholds'
      rw [(hstopped index call hcall).1] at hholds
      cases hholds
    · intro index call latest hcall hlatest
      have hholds := EngineCall.holdsLock_of_snapshot? hlatest
      rw [(hstopped index call hcall).1] at hholds
      cases hholds
    · intro latest hlatest
      cases hlatest
    · intro index call hcall
      exact (hstopped index call hcall).2

theorem Coordinated.run (hsystem : system.Coordinated)
    (events : List (EngineEvent crypto identity E)) : (system.run events).Coordinated := by
  induction events generalizing system with
  | nil => exact hsystem
  | cons event rest ih => exact ih (hsystem.step event)

theorem Coordinated.initial (config : EngineConfig identity) :
    Coordinated ({ config } : EngineSystem identity E) := by
  constructor
  · intro index other call call' hcall
    cases hcall
  · intro index call latest hcall
    cases hcall
  · intro latest hlatest
    cases hlatest
  · intro index call hcall
    cases hcall

end EngineSystem

end DeadcatNode
