import DeadcatNode.PricedInventory

/-!
# Idempotency of firm quotes

A key of an owner gets one quote.  Whoever asks for it again with the same terms
is answered with that quote, whatever has become of the reservation, and whoever
asks with other terms is refused; neither allocates anything.
-/

namespace DeadcatNode

open Checked ReservationBook

variable {quote : FirmQuote}

/-! ## One firm quote -/

def QuoteProgress.admitted {E : Type} : QuoteProgress E → Bool
  | .preflight | .lost | .done (.error _) => false
  | _ => true

section Quote

variable {identity : ProviderIdentity} {E : Type} {crypto : ProviderCrypto}
  {config : EngineConfig identity} {coordinator : CoordinatorState}
  {book : ReservationBook} {now : UnixMillis} {answers : EngineAnswers crypto E}
  {input : QuoteInput} {progress : QuoteProgress E}

theorem QuoteProgress.admitted_of_advance
    (hadmitted : (progress.advance crypto config coordinator book now answers
      input).1.admitted = true) :
    progress.admitted = true ∨ input.request.validate crypto.isProvablyUnspendable = .ok () := by
  cases progress with
  | preflight =>
    right
    simp only [QuoteProgress.advance, QuoteInput.preflight] at hadmitted
    split at hadmitted
    · cases hadmitted
    · next hvalid => exact hvalid
  | lost => cases hadmitted
  | done result =>
    cases result with
    | error error => cases hadmitted
    | ok outcome => exact .inl rfl
  | _ => exact .inl rfl

theorem QuoteProgress.advance_bound {outcome : FirmQuoteOutcome}
    (hdone : (progress.advance crypto config coordinator book now answers input).1 =
      .done (.ok outcome)) :
    progress = .done (.ok outcome) ∨
      Bound crypto (progress.advance crypto config coordinator book now answers
        input).2 input.owner input.key (input.digest crypto book.identity)
        outcome.quote := by
  have htimed : Timed crypto now book (progress.advance crypto config coordinator
      book now answers input).2 := by
    rcases progress.advance_operates input with hsame | ⟨operation, hoperation⟩
    · exact .inl hsame
    · rw [hoperation]
      exact apply_timed operation
  rcases advance_done hdone with hsame | ⟨hbound, -⟩ | ⟨view, draft, latest, rfl, hreserved⟩
  · exact .inl hsame
  · exact .inr (hbound.timed htimed)
  · rcases reserveFirmQuoteFromSnapshot_eq_ok hreserved with ⟨-, hbound⟩ | ⟨-, -, hbound⟩
    · exact .inr (hbound.timed htimed)
    · exact .inr hbound

theorem QuoteProgress.advance_sweeps {binding : StoredRequestBinding}
    (hkey : book.readRequestBinding input.owner input.key = some binding) :
    Sweeps now book (progress.advance crypto config coordinator book now answers input).2 := by
  cases progress with
  | preflight =>
    simp only [QuoteProgress.advance, QuoteInput.preflight]
    split
    · exact .inl rfl
    · split <;> exact preflightFirmQuote_sweeps config.policy
  | expiring =>
    simp only [QuoteProgress.advance, QuoteInput.expire]
    split <;> exact expireDue_sweeps maxExpirationBatch
  | submitting view draft =>
    simp only [QuoteProgress.advance, QuoteInput.submit]
    split
    · exact .inl rfl
    · split <;> exact replayFirmQuote_sweeps
  | reserving view draft latest => exact reserveFirmQuoteFromSnapshot_sweeps hkey
  | _ => exact .inl rfl

theorem QuoteInput.preflight_replays
    (hbound : Bound crypto book input.owner input.key (input.digest crypto book.identity) quote)
    (hvalid : input.request.validate crypto.isProvablyUnspendable = .ok ())
    (hbook : Integrity crypto book)
    (hclock : ∀ previous, book.lastObservedTime = some previous → previous ≤ now)
    (hle : book.allocationRevision ≤ book.auditSequence) (hroom : book.auditSequence + 1 < 2 ^ 64) :
    ∃ view, (input.preflight (E := E) crypto config book now).1 =
      .done (.ok ⟨quote, view, false⟩) := by
  obtain ⟨view, hreplay⟩ := hbound.preflightFirmQuote_eq hbook hclock hle hroom config.policy
  use view
  simp only [QuoteInput.preflight, hvalid, hreplay]

theorem QuoteInput.preflight_conflicts {digest : QuoteRequestDigest}
    (hbound : Bound crypto book input.owner input.key digest quote)
    (hvalid : input.request.validate crypto.isProvablyUnspendable = .ok ())
    (hother : input.digest crypto book.identity ≠ digest)
    (hclock : ∀ previous, book.lastObservedTime = some previous → previous ≤ now) :
    input.preflight (E := E) crypto config book now =
      (.done (.error (.provider (.idempotencyConflict input.owner input.key))),
        { book with lastObservedTime := some now }) := by
  have hconflict := hbound.preflightFirmQuote_conflict hother hclock config.policy
  simp only [QuoteInput.preflight, hvalid, hconflict]

theorem QuoteInput.preflight_regressed {highWaterMark : UnixMillis}
    (hmark : book.lastObservedTime = some highWaterMark) (hregressed : now < highWaterMark)
    (hvalid : input.request.validate crypto.isProvablyUnspendable = .ok ()) :
    input.preflight (E := E) crypto config book now =
      (.done (.error (.provider (.clockRegression highWaterMark now))), book) := by
  simp only [QuoteInput.preflight, hvalid, preflightFirmQuote,
    timedWrite_regressed hmark hregressed]

theorem validate_of_digest {other : QuoteInput}
    (hbinding : Set.InjOn crypto.quoteRequest {input.stored identity, other.stored identity})
    (hsame : input.digest crypto identity = other.digest crypto identity)
    (hvalid : other.request.validate crypto.isProvablyUnspendable = .ok ()) :
    input.request.validate crypto.isProvablyUnspendable = .ok () := by
  have hstored : input.stored identity = other.stored identity :=
    hbinding (Set.mem_insert _ _) (Set.mem_insert_of_mem _ rfl) hsame
  have hkind : input.request.kind = other.request.kind := congrArg StoredQuoteRequest.kind hstored
  have hrecipient : input.request.recipient = other.request.recipient :=
    congrArg StoredQuoteRequest.recipient hstored
  unfold FirmQuoteRequest.validate at hvalid ⊢
  rw [hkind, hrecipient]
  exact hvalid

end Quote

/-! ## All of them -/

namespace EngineSystem

variable {identity : ProviderIdentity} {E : Type} {crypto : ProviderCrypto}
  {system : EngineSystem identity E}

def Returned (system : EngineSystem identity E) (index : ℕ) (input : QuoteInput)
    (outcome : FirmQuoteOutcome) : Prop :=
  system.calls[index]? = some (.firmQuote input (.done (.ok outcome)))

/-- Every answer is the quote its key is bound to, and one call created it. -/
structure Answered (crypto : ProviderCrypto) (system : EngineSystem identity E) : Prop where
  identity_eq : system.book.identity = identity
  bound : ∀ index input outcome, system.Returned index input outcome →
    Bound crypto system.book input.owner input.key (input.digest crypto identity) outcome.quote
  valid : ∀ (index : ℕ) (input : QuoteInput) (progress : QuoteProgress E),
    system.calls[index]? = some (.firmQuote input progress) →
    progress.admitted = true → input.request.validate crypto.isProvablyUnspendable = .ok ()
  once : ∀ index other input input' outcome outcome',
    system.Returned index input outcome → system.Returned other input' outcome' →
    outcome.created = true → outcome'.created = true →
    input.owner = input'.owner → input.key = input'.key → index = other

theorem Answered.digest_eq (hsystem : system.Answered crypto) (input : QuoteInput) :
    input.digest crypto system.book.identity = input.digest crypto identity := by
  rw [hsystem.identity_eq]

theorem bound_not_free {book : ReservationBook} {owner : OwnerId}
    {key : IdempotencyKey} {digest : QuoteRequestDigest}
    (hbound : Bound crypto book owner key digest quote) :
    book.readRequestBinding owner key ≠ none := by
  obtain ⟨record, stored, hkey, -⟩ := hbound
  rw [hkey]
  exact Option.some_ne_none _

theorem Answered.step (hsystem : system.Answered crypto) (event : EngineEvent crypto identity E) :
    (system.step event).Answered crypto := by
  obtain ⟨clock, htimed⟩ := system.step_timed event
  -- An outcome was returned before, or by this step.
  have hreturned : ∀ index input outcome, (system.step event).Returned index input outcome →
      system.Returned index input outcome ∨
        ∃ now answers progress, event = .advance index now answers ∧
          system.calls[index]? = some (.firmQuote input progress) ∧
          (progress.advance crypto system.config system.coordinator system.book now
            answers input).1 = .done (.ok outcome) ∧
          (system.step event).book = (progress.advance crypto system.config
            system.coordinator system.book now answers input).2 := by
    intro index input outcome hnext
    rcases step_firmQuote hnext with hsame | hcase | hcase |
      ⟨now, answers, progress, hevent, hcall, hdone, hbook⟩
    · exact .inl hsame
    · cases hcase
    · cases hcase
    · exact .inr ⟨now, answers, progress, hevent, hcall, hdone.symm, hbook⟩
  -- A quote which this step creates has a key which was free.
  have hcreates : ∀ index input outcome,
      (system.step event).Returned index input outcome → outcome.created = true →
      system.Returned index input outcome ∨ (∃ now answers, event = .advance index now answers) ∧
          system.book.readRequestBinding input.owner input.key = none := by
    intro index input outcome hnext hcreated
    rcases hreturned index input outcome hnext with hsame |
      ⟨now, answers, progress, hevent, hcall, hdone, -⟩
    · exact .inl hsame
    · rcases QuoteProgress.advance_created hdone hcreated with rfl |
        ⟨view, draft, latest, rfl, hreserves⟩
      · exact .inl hcall
      · exact .inr ⟨⟨now, answers, hevent⟩, hreserves.free⟩
  constructor
  · rw [htimed.identity_eq]
    exact hsystem.identity_eq
  · intro index input outcome hnext
    rcases hreturned index input outcome hnext with hsame |
      ⟨now, answers, progress, hevent, hcall, hdone, hbook⟩
    · exact (hsystem.bound index input outcome hsame).timed htimed
    · rcases QuoteProgress.advance_bound hdone with rfl | hbound
      · exact (hsystem.bound index input outcome hcall).timed htimed
      · rw [hbook, ← hsystem.digest_eq input]
        exact hbound
  · intro index input next hnext hadmitted
    rcases step_firmQuote hnext with hsame | rfl | rfl |
      ⟨now, answers, progress, hevent, hcall, rfl, -⟩
    · exact hsystem.valid index input next hsame hadmitted
    · cases hadmitted
    · cases hadmitted
    · rcases QuoteProgress.admitted_of_advance hadmitted with hbefore | hvalid
      · exact hsystem.valid index input progress hcall hbefore
      · exact hvalid
  · intro index other input input' outcome outcome' hfirst hsecond hcreated hcreated' howner hkey
    rcases hcreates index input outcome hfirst hcreated with hold | ⟨⟨now, answers, hevent⟩, hfree⟩
    · rcases hcreates other input' outcome' hsecond hcreated' with hold' | ⟨-, hfree⟩
      · exact hsystem.once index other input input' outcome outcome' hold hold' hcreated
          hcreated' howner hkey
      · rw [← howner, ← hkey] at hfree
        exact absurd hfree (bound_not_free (hsystem.bound index input outcome hold))
    · rcases hcreates other input' outcome' hsecond hcreated' with hold' |
        ⟨⟨clock, answers', hevent'⟩, -⟩
      · rw [howner, hkey] at hfree
        exact absurd hfree (bound_not_free (hsystem.bound other input' outcome' hold'))
      · rw [hevent] at hevent'
        cases hevent'
        rfl

theorem Answered.run (hsystem : system.Answered crypto)
    (events : List (EngineEvent crypto identity E)) : (system.run events).Answered crypto := by
  induction events generalizing system with
  | nil => exact hsystem
  | cons event rest ih => exact ih (hsystem.step event)

theorem Answered.initial (config : EngineConfig identity) :
    Answered crypto ({ config } : EngineSystem identity E) := by
  constructor
  · rfl
  · intro index input outcome hreturned
    cases hreturned
  · intro index input progress hcall
    cases hcall
  · intro index other input input' outcome outcome' hreturned
    cases hreturned

theorem run_revision_le (system : EngineSystem identity E)
    (hle : system.book.allocationRevision ≤ system.book.auditSequence)
    (events : List (EngineEvent crypto identity E)) :
    (system.run events).book.allocationRevision ≤ (system.run events).book.auditSequence := by
  induction events generalizing system with
  | nil => exact hle
  | cons event rest ih =>
    obtain ⟨now, htimed⟩ := system.step_timed event
    exact ih (system.step event) (htimed.revision_le hle)

theorem step_preflight {index : ℕ} {input : QuoteInput}
    (hcall : system.calls[index]? = some (.firmQuote input .preflight)) (now : UnixMillis)
    (answers : EngineAnswers crypto E) :
    (system.step (.advance index now answers)).calls[index]? =
        some (.firmQuote input (input.preflight crypto system.config system.book now).1) ∧
      (system.step (.advance index now answers)).book =
        (input.preflight (E := E) crypto system.config system.book now).2 := by
  have hindex : index < system.calls.length := (List.getElem?_eq_some_iff.mp hcall).1
  rw [step_advance hcall (fun hawaits => by cases hawaits.1)]
  exact ⟨List.getElem?_set_self hindex, rfl⟩

/-- What a later request for a key which has a quote is answered with. -/
structure Answers (crypto : ProviderCrypto) (system : EngineSystem identity E)
    (index : ℕ) (input : QuoteInput) (outcome : FirmQuoteOutcome) (other : ℕ)
    (later : QuoteInput) (now : UnixMillis) (answers : EngineAnswers crypto E) : Prop where
  retry : (∀ previous, system.book.lastObservedTime = some previous → previous ≤ now) →
    later.digest crypto identity = input.digest crypto identity →
    Set.InjOn crypto.quoteRequest {later.stored identity, input.stored identity} →
    system.book.auditSequence + 1 < 2 ^ 64 →
    ∃ view, (system.step (.advance other now answers)).Returned other later
      ⟨outcome.quote, view, false⟩
  conflict : (∀ previous, system.book.lastObservedTime = some previous → previous ≤ now) →
    later.digest crypto identity ≠ input.digest crypto identity →
    later.request.validate crypto.isProvablyUnspendable = .ok () →
    (system.step (.advance other now answers)).calls[other]? = some (.firmQuote later (.done (.error
          (.provider (.idempotencyConflict later.owner later.key))))) ∧
      (system.step (.advance other now answers)).book =
        { system.book with lastObservedTime := some now }
  behind : ∀ previous, system.book.lastObservedTime = some previous → now < previous →
    later.request.validate crypto.isProvablyUnspendable = .ok () →
    (system.step (.advance other now answers)).calls[other]? =
        some (.firmQuote later (.done (.error (.provider (.clockRegression previous now))))) ∧
      (system.step (.advance other now answers)).book = system.book

theorem Answered.answers (hsystem : system.Answered crypto) (hbook : Integrity crypto system.book)
    (hle : system.book.allocationRevision ≤ system.book.auditSequence)
    {index : ℕ} {input : QuoteInput} {outcome : FirmQuoteOutcome}
    (hreturned : system.Returned index input outcome) {other : ℕ} {later : QuoteInput}
    (hcall : system.calls[other]? = some (.firmQuote later .preflight))
    (howner : later.owner = input.owner) (hkey : later.key = input.key) (now : UnixMillis)
    (answers : EngineAnswers crypto E) :
    system.Answers crypto index input outcome other later now answers := by
  have hbound := hsystem.bound index input outcome hreturned
  rw [← howner, ← hkey] at hbound
  obtain ⟨hanswer, hnext⟩ := step_preflight hcall now answers
  refine ⟨?_, ?_, ?_⟩
  · intro hclock hsame hbinding hroom
    have hvalid := validate_of_digest hbinding hsame (hsystem.valid index input _ hreturned rfl)
    rw [← hsame, ← hsystem.digest_eq later] at hbound
    obtain ⟨view, hreplay⟩ : ∃ view, (later.preflight (E := E) crypto system.config
        system.book now).1 = .done (.ok ⟨outcome.quote, view, false⟩) :=
      QuoteInput.preflight_replays hbound hvalid hbook hclock hle hroom
    rw [hreplay] at hanswer
    exact ⟨view, hanswer⟩
  · intro hclock hother hvalid
    rw [← hsystem.digest_eq later] at hother
    have hconflict : later.preflight (E := E) crypto system.config system.book now =
        (.done (.error (.provider (.idempotencyConflict later.owner later.key))),
          { system.book with lastObservedTime := some now }) :=
      QuoteInput.preflight_conflicts hbound hvalid hother hclock
    rw [hconflict] at hanswer hnext
    exact ⟨hanswer, hnext⟩
  · intro previous hmark hregressed hvalid
    rw [QuoteInput.preflight_regressed hmark hregressed hvalid] at hanswer hnext
    exact ⟨hanswer, hnext⟩

end EngineSystem

def changedInput : QuoteInput :=
  { quotingInput with request := { quotingInput.request with maximumInputAssetVenueFee := 1 } }

/-- One request has been answered; the same one and a changed one are made. -/
def repeatedEvents : List QuotingEvent :=
  scanAndRequest ++ advances 1 2 9 ++ [.call (.firmQuote changedInput)]

abbrev repeatedRun : EngineSystem sampleIdentity Unit := quotingRun repeatedEvents

end DeadcatNode
