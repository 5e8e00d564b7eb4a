import DeadcatNode.CoordinatorLock

/-!
# Quotes are priced against current inventory

Pricing runs outside every lock.  A quote is created all the same only from the
inventory which is eligible at the moment of the write: the lock of the
coordinator keeps the scan, and every change of the allocations raises the
revision which the write compares.
-/

namespace DeadcatNode

open Checked ReservationBook

variable {index : ℕ} {before : ReservationBook} {latest : PublishedSnapshot} {input : QuoteInput}
  {pair : MarketQuoteConfig × PairRule} {identity : ProviderIdentity} {E : Type}
  {crypto : ProviderCrypto}

/-! ## From the read to the write -/

/-- A draft which the engine priced from an inventory. -/
def FirmQuoteDraft.PricedFrom (crypto : ProviderCrypto) (E : Type)
    (input : QuoteInput) (eligible : EligibleInventory) (draft : FirmQuoteDraft) :
    Prop :=
  ∃ (answers : EngineAnswers crypto E) (pair : MarketQuoteConfig × PairRule),
    draftQuote answers input.request pair.1 pair.2 eligible = .ok draft

variable {draft : FirmQuoteDraft}

theorem FirmQuoteDraft.PricedFrom.evidence {crypto : ProviderCrypto} {E : Type}
    {eligible : EligibleInventory}
    (hpriced : draft.PricedFrom crypto E input eligible) : draft.snapshot = eligible.evidence := by
  obtain ⟨answers, pair, hdraft⟩ := hpriced
  exact (draftQuote_snapshot hdraft).1

/-- A firm quote goes on from the inventory it read: it is priced from it, and
admits only the scan it was read from. -/
def QuoteProgress.Continues {E : Type} (crypto : ProviderCrypto)
    (input : QuoteInput) (eligible : EligibleInventory) : QuoteProgress E → Prop
  | .drafting _ view => view = eligible
  | .submitting view draft | .admitting view draft =>
    view = eligible ∧ draft.PricedFrom crypto E input eligible
  | .comparing view draft latest | .reserving view draft latest =>
    view = eligible ∧ draft.PricedFrom crypto E input eligible ∧ latest.token = eligible.token
  | .done _ | .lost => True
  | _ => False

def QuoteProgress.running {E : Type} : QuoteProgress E → Bool
  | .done _ | .lost => false
  | _ => true

section Quote

variable {config : EngineConfig identity} {coordinator : CoordinatorState}
  {book : ReservationBook} {now : UnixMillis} {answers : EngineAnswers crypto E}
  {input : QuoteInput} {progress : QuoteProgress E} {eligible : EligibleInventory}

theorem QuoteProgress.Continues.advance (hcontinues : progress.Continues crypto input eligible) :
    (progress.advance crypto config coordinator book now answers
      input).1.Continues crypto input eligible := by
  cases progress with
  | drafting pair view =>
    simp only [QuoteProgress.advance, QuoteInput.draft]
    split
    · trivial
    · next draft hdraft =>
      have hview : view = eligible := hcontinues
      rw [hview] at hdraft
      exact ⟨hview, answers, pair, hdraft⟩
  | submitting view draft =>
    simp only [QuoteProgress.advance, QuoteInput.submit]
    split
    · trivial
    · split
      · trivial
      · trivial
      · exact hcontinues
  | admitting view draft =>
    simp only [QuoteProgress.advance, QuoteInput.admission]
    split
    · trivial
    · split
      · trivial
      · next htoken =>
        have hview : view = eligible := hcontinues.1
        rw [hview, ne_eq, not_not] at htoken
        exact ⟨hview, hcontinues.2, htoken⟩
  | comparing view draft latest =>
    simp only [QuoteProgress.advance, QuoteInput.compare]
    split
    · trivial
    · split
      · trivial
      · exact hcontinues
  | reserving | done | lost => trivial
  | preflight | expiring | reading | intersecting => cases hcontinues

theorem QuoteProgress.running_of_advance
    (hrunning : (progress.advance crypto config coordinator book now answers
      input).1.running = true) : progress.running = true := by
  cases progress with
  | done | lost => cases hrunning
  | _ => rfl

end Quote

namespace EngineSystem

variable {system : EngineSystem identity E} {source : PublishedSnapshot}

/-- The tokens of later scans differ from the one of an earlier scan. -/
def Outlives (coordinator : CoordinatorState) (source : PublishedSnapshot) : Prop :=
  source.token.generation ≤ coordinator.generation ∧
    ∀ latest, coordinator.latest = some latest → latest.token = source.token → latest = source

theorem Outlives.step {coordinator next : CoordinatorState}
    {book : ReservationBook} (houtlives : Outlives coordinator source)
    (hstep : CoordinatorStep book coordinator next) : Outlives next source := by
  obtain ⟨hgeneration, hunique⟩ := houtlives
  cases hstep with
  | same => exact ⟨hgeneration, hunique⟩
  | dropped =>
    refine ⟨hgeneration, ?_⟩
    intro latest hlatest
    cases hlatest
  | published published hbook hnext =>
    constructor
    · dsimp only
      omega
    · intro latest hlatest htoken
      cases hlatest
      -- The new scan has a later generation.
      have hsame : published.token.generation = source.token.generation :=
        congrArg EligibilityToken.generation htoken
      omega

/-- A firm quote which read the inventory of a scan from the book before. -/
structure Tracks (crypto : ProviderCrypto) (system : EngineSystem identity E)
    (index : ℕ) (input : QuoteInput) (before : ReservationBook)
    (source : PublishedSnapshot) : Prop where
  since : Since before system.book
  call : ∃ progress, system.calls[index]? = some (.firmQuote input progress) ∧
    progress.Continues crypto input (before.eligibleView crypto source) ∧
    (progress.running = true → Outlives system.coordinator source)

theorem Tracks.step (htracks : system.Tracks crypto index input before source)
    (hsystem : system.Coordinated) (event : EngineEvent crypto identity E) :
    (system.step event).Tracks crypto index input before source := by
  obtain ⟨hsince, progress, hcall, hcontinues, houtlives⟩ := htracks
  obtain ⟨clock, htimed⟩ := system.step_timed event
  refine ⟨hsince.trans htimed.since, ?_⟩
  cases event with
  | operation operation now => exact ⟨progress, hcall, hcontinues, houtlives⟩
  | call request =>
    refine ⟨progress, ?_, hcontinues, houtlives⟩
    have hindex : index < system.calls.length := (List.getElem?_eq_some_iff.mp hcall).1
    exact (List.getElem?_append_left hindex).trans hcall
  | restart config =>
    simp only [EngineSystem.step, List.getElem?_map, hcall, Option.map_some]
    cases progress with
    | done result => exact ⟨_, rfl, trivial, fun hrunning => by cases hrunning⟩
    | _ => exact ⟨.lost, rfl, trivial, fun hrunning => by cases hrunning⟩
  | advance other now answers =>
    cases hother : system.calls[other]? with
    | none =>
      simp only [EngineSystem.step, hother]
      exact ⟨progress, hcall, hcontinues, houtlives⟩
    | some call =>
      by_cases hlock : call.awaitsLock ∧ system.locked
      · simp only [EngineSystem.step, hother, if_pos hlock]
        exact ⟨progress, hcall, hcontinues, houtlives⟩
      rw [step_advance hother hlock]
      by_cases hcase : other = index
      · -- The quote itself goes on.
        rw [hcase, hcall] at hother
        cases hother
        have hindex : index < system.calls.length := (List.getElem?_eq_some_iff.mp hcall).1
        refine ⟨(progress.advance crypto system.config system.coordinator
          system.book now answers input).1, ?_, hcontinues.advance, ?_⟩
        · rw [hcase]
          exact List.getElem?_set_self hindex
        · intro hrunning
          exact houtlives (QuoteProgress.running_of_advance hrunning)
      · refine ⟨progress, ?_, hcontinues, ?_⟩
        · rw [← hcall]
          exact List.getElem?_set_ne hcase
        · intro hrunning
          exact (houtlives hrunning).step
            (EngineCall.advance_coordinator (hsystem.scans other call hother)).1

theorem Tracks.run (htracks : system.Tracks crypto index input before source)
    (hsystem : system.Coordinated) (events : List (EngineEvent crypto identity E)) :
    (system.run events).Tracks crypto index input before source := by
  induction events generalizing system with
  | nil => exact htracks
  | cons event rest ih => exact ih (htracks.step hsystem event) (hsystem.step event)

theorem Coordinated.reads (hsystem : system.Coordinated)
    (hcall : system.calls[index]? =
      some (.firmQuote input (.intersecting pair latest))) (now : UnixMillis)
    (answers : EngineAnswers crypto E) :
    (system.step (.advance index now answers)).calls[index]? =
        some (.firmQuote input (.drafting pair (system.book.eligibleView crypto latest))) ∧
      (system.step (.advance index now answers)).Tracks crypto index input system.book latest := by
  have hlatest := hsystem.held index _ latest hcall rfl
  obtain ⟨hpublished, hgeneration⟩ := hsystem.latest latest hlatest
  have hread : system.book.eligibleFromSnapshot crypto latest =
      .ok (system.book.eligibleView crypto latest) :=
    eligibleFromSnapshot_eq_ok.mpr ⟨hpublished, rfl⟩
  have hindex : index < system.calls.length := (List.getElem?_eq_some_iff.mp hcall).1
  have hstep : system.step (.advance index now answers) =
      { system with calls := system.calls.set index (.firmQuote input
        (.drafting pair (system.book.eligibleView crypto latest))) } := by
    rw [step_advance hcall (fun hawaits => by cases hawaits.1)]
    simp only [EngineCall.advance, QuoteProgress.advance, QuoteInput.intersect, hread]
  rw [hstep]
  have hnext : (system.calls.set index (.firmQuote input (.drafting pair
      (system.book.eligibleView crypto latest))))[index]? = some (.firmQuote input
        (.drafting pair (system.book.eligibleView crypto latest))) :=
    List.getElem?_set_self hindex
  refine ⟨hnext, .refl _, _, hnext, rfl, ?_⟩
  intro _
  refine ⟨hgeneration.le, ?_⟩
  intro other hother _
  rw [hlatest] at hother
  exact (Option.some.inj hother).symm

/-! ## Steps of one quote -/

theorem step_firmQuote {event : EngineEvent crypto identity E} {next : QuoteProgress E}
    (hnext : (system.step event).calls[index]? = some (.firmQuote input next)) :
    system.calls[index]? = some (.firmQuote input next) ∨ next = .preflight ∨
    next = .lost ∨ ∃ now answers progress, event = .advance index now answers ∧
      system.calls[index]? = some (.firmQuote input progress) ∧
      next = (progress.advance crypto system.config system.coordinator system.book
        now answers input).1 ∧
      (system.step event).book = (progress.advance crypto system.config
        system.coordinator system.book now answers input).2 := by
  cases event with
  | operation operation now => exact .inl hnext
  | call request =>
    by_cases hindex : index < system.calls.length
    · left
      exact (List.getElem?_append_left hindex).symm.trans hnext
    · right
      left
      have hmem : (system.calls ++ [request.start])[index]? = some (.firmQuote input next) := hnext
      rw [List.getElem?_append_right (not_lt.mp hindex)] at hmem
      have hstart := List.mem_singleton.mp (List.mem_of_getElem? hmem)
      cases request with
      | firmQuote other =>
        cases hstart
        rfl
      | refresh | eligible => cases hstart
  | restart config =>
    simp only [EngineSystem.step, List.getElem?_map] at hnext
    obtain ⟨call, hcall, hstop⟩ := Option.map_eq_some_iff.mp hnext
    unfold EngineCall.stop at hstop
    split at hstop
    · cases hstop
      exact .inl hcall
    · cases hstop
      exact .inr (.inr (.inl rfl))
    all_goals cases hstop
  | advance other now answers =>
    cases hother : system.calls[other]? with
    | none =>
      simp only [EngineSystem.step, hother] at hnext
      exact .inl hnext
    | some call =>
      by_cases hlock : call.awaitsLock ∧ system.locked
      · simp only [EngineSystem.step, hother, if_pos hlock] at hnext
        exact .inl hnext
      rw [step_advance hother hlock] at hnext ⊢
      rcases getElem?_set_eq_some hnext with ⟨rfl, hcall⟩ | ⟨-, hsame⟩
      · right
        right
        right
        cases call with
        | firmQuote other progress =>
          cases hcall
          exact ⟨now, answers, progress, rfl, hother, rfl, rfl⟩
        | refresh | eligible => cases hcall
      · exact .inl hsame

end EngineSystem

def QuoteProgress.hasRead {E : Type} : QuoteProgress E → Bool
  | .drafting _ _ | .submitting _ _ | .admitting _ _ | .comparing _ _ _
  | .reserving _ _ _ => true
  | _ => false

section Quote

variable {config : EngineConfig identity} {coordinator : CoordinatorState}
  {book : ReservationBook} {now : UnixMillis} {answers : EngineAnswers crypto E}
  {input : QuoteInput} {progress : QuoteProgress E}

theorem QuoteProgress.hasRead_of_advance
    (hread : (progress.advance crypto config coordinator book now answers input).1.hasRead = true) :
    progress.hasRead = true ∨ ∃ pair latest, progress = .intersecting pair latest := by
  cases progress with
  | preflight =>
    simp only [QuoteProgress.advance, QuoteInput.preflight] at hread
    repeat' split at hread
    all_goals cases hread
  | expiring =>
    simp only [QuoteProgress.advance, QuoteInput.expire] at hread
    repeat' split at hread
    all_goals cases hread
  | reading =>
    simp only [QuoteProgress.advance, QuoteInput.read] at hread
    repeat' split at hread
    all_goals cases hread
  | intersecting pair latest => exact .inr ⟨pair, latest, rfl⟩
  | done | lost => cases hread
  | _ => exact .inl rfl

/-- A quote is returned anew by a replay or by the reservation. -/
theorem QuoteProgress.advance_done {outcome : FirmQuoteOutcome}
    (hdone : (progress.advance crypto config coordinator book now answers input).1 =
      .done (.ok outcome)) :
    progress = .done (.ok outcome) ∨
      Bound crypto book input.owner input.key (input.digest crypto book.identity) outcome.quote ∧
        outcome.created = false ∨
      ∃ view draft latest, progress = .reserving view draft latest ∧
        (book.reserveFirmQuoteFromSnapshot crypto input.owner input.key
          (input.digest crypto book.identity) draft config.policy latest.token.observedAt
          config.freshness.maxSnapshotAgeMillis now).1 = .ok outcome := by
  cases progress with
  | preflight =>
    simp only [QuoteProgress.advance, QuoteInput.preflight] at hdone
    split at hdone
    · cases hdone
    · split at hdone
      · cases hdone
      · next hwritten =>
        cases hdone
        exact .inr (.inl (preflightFirmQuote_replays hwritten))
      · cases hdone
  | submitting view draft =>
    simp only [QuoteProgress.advance, QuoteInput.submit] at hdone
    split at hdone
    · cases hdone
    · split at hdone
      · cases hdone
      · next hwritten =>
        cases hdone
        exact .inr (.inl (replayFirmQuote_replays hwritten))
      · cases hdone
  | reserving view draft latest =>
    simp only [QuoteProgress.advance, QuoteInput.reserve, QuoteProgress.done.injEq,
      mapError_eq_ok] at hdone
    exact .inr (.inr ⟨view, draft, latest, rfl, hdone⟩)
  | done result => exact .inl hdone
  | expiring =>
    simp only [QuoteProgress.advance, QuoteInput.expire] at hdone
    repeat' split at hdone
    all_goals cases hdone
  | reading =>
    simp only [QuoteProgress.advance, QuoteInput.read] at hdone
    repeat' split at hdone
    all_goals cases hdone
  | intersecting pair latest =>
    simp only [QuoteProgress.advance, QuoteInput.intersect] at hdone
    split at hdone <;> cases hdone
  | drafting pair view =>
    simp only [QuoteProgress.advance, QuoteInput.draft] at hdone
    split at hdone <;> cases hdone
  | admitting view draft =>
    simp only [QuoteProgress.advance, QuoteInput.admission] at hdone
    repeat' split at hdone
    all_goals cases hdone
  | comparing view draft latest =>
    simp only [QuoteProgress.advance, QuoteInput.compare] at hdone
    repeat' split at hdone
    all_goals cases hdone
  | lost => cases hdone

theorem QuoteProgress.advance_created {outcome : FirmQuoteOutcome}
    (hdone : (progress.advance crypto config coordinator book now answers input).1 =
      .done (.ok outcome)) (hcreated : outcome.created = true) :
    progress = .done (.ok outcome) ∨ ∃ view draft latest, progress = .reserving view draft latest ∧
      Reserves crypto book input.owner input.key draft latest.token.observedAt
        config.freshness.maxSnapshotAgeMillis now := by
  rcases advance_done hdone with hsame | ⟨-, hreplayed⟩ | ⟨view, draft, latest, rfl, hreserved⟩
  · exact .inl hsame
  · rw [hcreated] at hreplayed
    cases hreplayed
  · rcases reserveFirmQuoteFromSnapshot_eq_ok hreserved with ⟨hfalse, -⟩ | ⟨-, hreserves, -⟩
    · rw [hcreated] at hfalse
      cases hfalse
    · exact .inr ⟨view, draft, latest, rfl, hreserves⟩

end Quote

namespace EngineSystem

variable {system : EngineSystem identity E} {held : PublishedSnapshot} {view : EligibleInventory}

theorem exists_read (config : EngineConfig identity) (events : List (EngineEvent crypto identity E))
    {progress : QuoteProgress E}
    (hcall : (run { config } events).calls[index]? =
      some (.firmQuote input progress)) (hread : progress.hasRead = true) :
    ∃ earlier now answers later pair latest,
      events = earlier ++ .advance index now answers :: later ∧
      (run { config } earlier).calls[index]? =
        some (.firmQuote input (.intersecting pair latest)) := by
  induction events using List.reverseRecOn generalizing progress with
  | nil => cases hcall
  | append_singleton events event ih =>
    rw [run_append] at hcall
    rcases step_firmQuote hcall with hsame | rfl | rfl |
      ⟨now, answers, before, rfl, hbefore, rfl, -⟩
    · obtain ⟨earlier, now, answers, later, pair, latest, rfl, hpoint⟩ := ih hsame hread
      refine ⟨earlier, now, answers, later ++ [event], pair, latest, ?_, hpoint⟩
      rw [List.append_assoc, List.cons_append]
    · cases hread
    · cases hread
    · rcases QuoteProgress.hasRead_of_advance hread with hearlier | ⟨pair, latest, rfl⟩
      · obtain ⟨earlier, clock, answers', later, pair, latest, rfl, hpoint⟩ := ih hbefore hearlier
        refine ⟨earlier, clock, answers', later ++ [.advance index now answers],
          pair, latest, ?_, hpoint⟩
        rw [List.append_assoc, List.cons_append]
      · exact ⟨events, now, answers, [], pair, latest, rfl, hbefore⟩

theorem run_tracks (config : EngineConfig identity)
    {earlier later : List (EngineEvent crypto identity E)}
    {now : UnixMillis} {answers : EngineAnswers crypto E}
    (hread : (run { config } earlier).calls[index]? =
      some (.firmQuote input (.intersecting pair latest))) :
    (run { config } (earlier ++ .advance index now answers :: later)).Tracks crypto
      index input (run { config } earlier).book latest := by
  have hcoordinated : (run { config } earlier).Coordinated :=
    (Coordinated.initial config).run earlier
  rw [run_append]
  exact (hcoordinated.reads hread now answers).2.run (hcoordinated.step _) later

/-! ## Priced against current inventory -/

def Creates (system : EngineSystem identity E)
    (event : EngineEvent crypto identity E) (index : ℕ) (input : QuoteInput) : Prop :=
  ∃ outcome : FirmQuoteOutcome, outcome.created = true ∧ (system.step event).calls[index]? =
      some (.firmQuote input (.done (.ok outcome))) ∧
    system.calls[index]? ≠ some (.firmQuote input (.done (.ok outcome)))

/-- A firm quote which read its inventory before writes now, from the inventory
which is available now and from a scan which is the latest and recent. -/
structure PricedCurrent (crypto : ProviderCrypto)
    (before system : EngineSystem identity E) (index : ℕ) (input : QuoteInput)
    (now : UnixMillis) (pair : MarketQuoteConfig × PairRule)
    (latest : PublishedSnapshot) (eligible : EligibleInventory)
    (draft : FirmQuoteDraft) : Prop where
  reads : before.calls[index]? = some (.firmQuote input (.intersecting pair latest))
  eligible_eq : before.book.eligibleFromSnapshot crypto latest = .ok eligible
  priced : draft.PricedFrom crypto E input eligible
  writes : system.calls[index]? = some (.firmQuote input (.reserving eligible draft latest))
  current : system.coordinator.latest = some latest
  available : system.book.availableOutputs latest = eligible.outputs
  observed : latest.token.observedAt ≤ now
  recent : now - latest.token.observedAt < system.config.freshness.maxSnapshotAgeMillis

theorem Tracks.pricedCurrent {before : EngineSystem identity E} {now : UnixMillis}
    (hbefore : before.Coordinated)
    (hread : before.calls[index]? = some (.firmQuote input (.intersecting pair latest)))
    (htracks : system.Tracks crypto index input before.book latest) (hsystem : system.Coordinated)
    (hcall : system.calls[index]? = some (.firmQuote input (.reserving view draft held)))
    (hreserves : Reserves crypto system.book input.owner input.key draft
      held.token.observedAt system.config.freshness.maxSnapshotAgeMillis now) :
    PricedCurrent crypto before system index input now pair latest
      (before.book.eligibleView crypto latest) draft := by
  obtain ⟨hsince, progress, hprogress, hcontinues, houtlives⟩ := htracks
  rw [hcall] at hprogress
  cases hprogress
  obtain ⟨rfl, hpriced, htoken⟩ := hcontinues
  have hheld := hsystem.held index _ held hcall rfl
  have hsame : held = latest := (houtlives rfl).2 held hheld htoken
  rw [hsame] at hheld hreserves hcall
  have hlatest := hbefore.held index _ latest hread rfl
  have hpublished := (hbefore.latest latest hlatest).1
  -- The write compared the revision of the draft with the one of the book.
  have hrevision : before.book.allocationRevision = system.book.allocationRevision := by
    rw [hreserves.revision, hpriced.evidence]
    rfl
  exact ⟨hread, eligibleFromSnapshot_eq_ok.mpr ⟨hpublished, rfl⟩, hpriced, hcall,
    hheld, hsince.availableOutputs hrevision latest, hreserves.observed, hreserves.recent⟩

theorem revision_ne_of_changed {middle after : ReservationBook}
    (hfirst : Since before middle) (hsecond : Since middle after)
    (hchanged : middle.allocations ≠ before.allocations) :
    after.allocationRevision ≠ before.allocationRevision := by
  intro hsame
  have hlow := hfirst.revision
  have hhigh := hsecond.revision
  exact hchanged (hfirst.allocations (by omega))

theorem run_since (system : EngineSystem identity E)
    (events : List (EngineEvent crypto identity E)) :
    Since system.book (system.run events).book := by
  induction events generalizing system with
  | nil => exact .refl _
  | cons event rest ih =>
    obtain ⟨now, htimed⟩ := system.step_timed event
    exact htimed.since.trans (ih (system.step event))

def ReportsChange (system : EngineSystem identity E)
    (event : EngineEvent crypto identity E) (index : ℕ) (input : QuoteInput) : Prop :=
  (system.step event).calls[index]? = some (.firmQuote input (.done (.error
    (.inventory (.provider .eligibleInventoryChanged)))))

theorem Tracks.compares_changed
    (htracks : system.Tracks crypto index input before latest) (hsystem : system.Coordinated)
    (hchanged : system.book.allocationRevision ≠ before.allocationRevision)
    (hcall : system.calls[index]? =
      some (.firmQuote input (.comparing view draft held))) (now : UnixMillis)
    (answers : EngineAnswers crypto E) :
    system.ReportsChange (.advance index now answers) index input := by
  unfold ReportsChange
  obtain ⟨-, progress, hprogress, hcontinues, -⟩ := htracks
  rw [hcall] at hprogress
  cases hprogress
  have hpriced := hcontinues.2.1
  have hheld := hsystem.held index _ held hcall rfl
  have hread : system.book.eligibleFromSnapshot crypto held =
      .ok (system.book.eligibleView crypto held) :=
    eligibleFromSnapshot_eq_ok.mpr ⟨(hsystem.latest held hheld).1, rfl⟩
  have hrevision : draft.snapshot.allocationRevision ≠
      (system.book.eligibleView crypto held).allocationRevision := by
    rw [hpriced.evidence]
    exact Ne.symm hchanged
  have hcheck : draft.checkCurrent (E := E) held
      (system.book.eligibleView crypto held) = .error (.provider .eligibleInventoryChanged) := by
    simp only [FirmQuoteDraft.checkCurrent, require, if_neg (not_not.mpr (Or.inl hrevision))]
    rfl
  have hindex : index < system.calls.length := (List.getElem?_eq_some_iff.mp hcall).1
  rw [step_advance hcall (fun hawaits => by cases hawaits.1)]
  simp only [EngineCall.advance, QuoteProgress.advance, QuoteInput.compare, hread, hcheck]
  exact List.getElem?_set_self hindex

theorem Tracks.reserves_changed (htracks : system.Tracks crypto index input before latest)
    (hidentity : system.book.identity = identity)
    (hchanged : system.book.allocationRevision ≠ before.allocationRevision)
    (hcall : system.calls[index]? =
      some (.firmQuote input (.reserving view draft held))) {now : UnixMillis}
    (hclock : ∀ previous, system.book.lastObservedTime = some previous → previous ≤ now)
    (hfree : system.book.readRequestBinding input.owner input.key = none)
    (hobserved : held.token.observedAt ≤ now)
    (hrecent : now - held.token.observedAt < system.config.freshness.maxSnapshotAgeMillis)
    (answers : EngineAnswers crypto E) :
    system.ReportsChange (.advance index now answers) index input := by
  unfold ReportsChange
  obtain ⟨-, progress, hprogress, hcontinues, -⟩ := htracks
  rw [hcall] at hprogress
  cases hprogress
  have hpriced := hcontinues.2.1
  have hrevision : system.book.allocationRevision ≠ draft.snapshot.allocationRevision := by
    rw [hpriced.evidence]
    exact hchanged
  have hpolicy : system.config.policy.feePolicy.val.policyAsset =
      system.book.identity.policyAsset := by
    rw [hidentity]
    exact system.config.policyAsset
  have hwrite : (system.book.reserveFirmQuoteFromSnapshot crypto input.owner input.key
      (input.digest crypto system.book.identity) draft system.config.policy
      held.token.observedAt system.config.freshness.maxSnapshotAgeMillis now).1 =
        .error .eligibleInventoryChanged :=
    reserveFirmQuoteFromSnapshot_changed hpolicy hclock hfree hobserved hrecent hrevision
  have hindex : index < system.calls.length := (List.getElem?_eq_some_iff.mp hcall).1
  rw [step_advance hcall (fun hawaits => by cases hawaits.1)]
  simp only [EngineCall.advance, QuoteProgress.advance, QuoteInput.reserve, hwrite]
  exact List.getElem?_set_self hindex

/-- What a firm quote does once the allocations have changed since its read. -/
structure RefusesChanged (crypto : ProviderCrypto)
    (system : EngineSystem identity E) (index : ℕ) (input : QuoteInput) : Prop where
  creates : ∀ event : EngineEvent crypto identity E, ¬system.Creates event index input
  compares : ∀ view draft held, system.calls[index]? =
      some (.firmQuote input (.comparing view draft held)) →
    ∀ (now : UnixMillis) (answers : EngineAnswers crypto E),
      system.ReportsChange (.advance index now answers) index input
  reserves : ∀ view draft held, system.calls[index]? =
      some (.firmQuote input (.reserving view draft held)) →
    ∀ (now : UnixMillis) (answers : EngineAnswers crypto E),
      (∀ previous, system.book.lastObservedTime = some previous → previous ≤ now) →
      system.book.readRequestBinding input.owner input.key = none →
      held.token.observedAt ≤ now →
      now - held.token.observedAt < system.config.freshness.maxSnapshotAgeMillis →
      system.ReportsChange (.advance index now answers) index input

end EngineSystem

end DeadcatNode
