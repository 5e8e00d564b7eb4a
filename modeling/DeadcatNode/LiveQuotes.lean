import DeadcatNode.FirmQuoteOutcomes
import DeadcatNode.KeyEncoding

/-!
# Live quotes

The quotas on live quotes and the tables ordered by deadlines.  A quote counts
from its creation until its deadline, however late its reservation is swept, so
the quotas bound the reserved reservations with a deadline ahead.  A sweep
releases the reserved reservations with the oldest deadlines which are due.
-/

namespace DeadcatNode

open Checked

namespace ReservationBook

variable {crypto : ProviderCrypto} {book next : ReservationBook} {now time : UnixMillis}
  {id : ReservationId} {owner : OwnerId} {record : StoredReservation} {policy : QuoteEnginePolicy}
  {owners : OwnerId → Bool} {deadline : UnixMillis}

/-! ## Keys as bytes -/

/-- The bytes of a row of the expiration table: eight of the deadline and the
identifier. -/
def encodeExpirationKey (key : ExpirationKey) : List UInt8 :=
  KeyEncoding.bigEndian 8 (ofLex key).1 ++ KeyEncoding.bigEndian 32 (ofLex key).2

def encodeLiveQuoteKey (key : LiveQuoteKey) : List UInt8 :=
  KeyEncoding.bigEndian 8 (ofLex key).1 ++ (KeyEncoding.bigEndian 32 (ofLex (ofLex key).2).1 ++
      KeyEncoding.bigEndian 32 (ofLex (ofLex key).2).2)

theorem encodeExpirationKey_lt_iff {deadline' : UnixMillis}
    {id' : ReservationId} (hdeadline : deadline < 2 ^ 64)
    (hdeadline' : deadline' < 2 ^ 64) (hid : id < 2 ^ 256) (hid' : id' < 2 ^ 256) :
    encodeExpirationKey (expirationKey deadline id) <
        encodeExpirationKey (expirationKey deadline' id') ↔
      expirationKey deadline id < expirationKey deadline' id' := by
  have hbytes : (2 : ℕ) ^ 64 = 256 ^ 8 := by norm_num
  have hbytes' : (2 : ℕ) ^ 256 = 256 ^ 32 := by norm_num
  rw [hbytes] at hdeadline hdeadline'
  rw [hbytes'] at hid hid'
  simp only [encodeExpirationKey, expirationKey, ofLex_toLex, Prod.Lex.toLex_lt_toLex,
    KeyEncoding.bigEndian_append_lt_iff hdeadline hdeadline', KeyEncoding.bigEndian_lt_iff hid hid']

theorem encodeLiveQuoteKey_lt_iff {deadline' : UnixMillis}
    {owner' : OwnerId} {id' : ReservationId} (hdeadline : deadline < 2 ^ 64)
    (hdeadline' : deadline' < 2 ^ 64) (howner : owner < 2 ^ 256)
    (howner' : owner' < 2 ^ 256) (hid : id < 2 ^ 256) (hid' : id' < 2 ^ 256) :
    encodeLiveQuoteKey (liveQuoteKey deadline owner id) <
        encodeLiveQuoteKey (liveQuoteKey deadline' owner' id') ↔
      liveQuoteKey deadline owner id < liveQuoteKey deadline' owner' id' := by
  have hbytes : (2 : ℕ) ^ 64 = 256 ^ 8 := by norm_num
  have hbytes' : (2 : ℕ) ^ 256 = 256 ^ 32 := by norm_num
  rw [hbytes] at hdeadline hdeadline'
  rw [hbytes'] at howner howner' hid hid'
  simp only [encodeLiveQuoteKey, liveQuoteKey, ofLex_toLex, Prod.Lex.toLex_lt_toLex,
    KeyEncoding.bigEndian_append_lt_iff hdeadline hdeadline',
    KeyEncoding.bigEndian_append_lt_iff howner howner', KeyEncoding.bigEndian_lt_iff hid hid']

/-! ## Counting live quotes -/

def liveReservations (book : ReservationBook) (time : UnixMillis)
    (owners : OwnerId → Bool) : List (ReservationId × StoredReservation) :=
  book.reservations.toList.filter fun row =>
    row.2.state = .reserved ∧ time < row.2.acceptBefore ∧ owners row.2.owner

theorem mem_liveReservations : (id, record) ∈ book.liveReservations time owners ↔
      book.reservations[id]? = some record ∧ record.state = .reserved ∧
        time < record.acceptBefore ∧ owners record.owner := by
  unfold liveReservations
  rw [List.mem_filter, Table.mem_toList_iff, decide_eq_true_iff]

theorem liveReservations_length_le {ids : List ReservationId}
    (hids : ∀ (id : ReservationId) (record : StoredReservation),
      book.reservations[id]? = some record →
      record.state = .reserved → time < record.acceptBefore → owners record.owner →
      id ∈ ids) : (book.liveReservations time owners).length ≤ ids.length := by
  have hnodup : ((book.liveReservations time owners).map Prod.fst).Nodup :=
    (Table.nodup_keys book.reservations).sublist (List.filter_sublist.map Prod.fst)
  have hsubset : (book.liveReservations time owners).map Prod.fst ⊆ ids := by
    intro id hid
    obtain ⟨⟨_, record⟩, hlive, rfl⟩ := List.mem_map.mp hid
    obtain ⟨hrow, hreserved, hahead, howner⟩ := mem_liveReservations.mp hlive
    exact hids _ record hrow hreserved hahead howner
  have hle := (List.subperm_of_subset hnodup hsubset).length_le
  rwa [List.length_map] at hle

theorem liveReservations_length_le_of {later : UnixMillis}
    (hbefore : ∀ (id : ReservationId) (record : StoredReservation),
      next.reservations[id]? = some record → record.state = .reserved →
      later < record.acceptBefore → owners record.owner →
      book.reservations[id]? = some record ∧ time < record.acceptBefore) :
    (next.liveReservations later owners).length ≤ (book.liveReservations time owners).length := by
  have hids : (next.liveReservations later owners).length ≤
      ((book.liveReservations time owners).map Prod.fst).length := by
    apply liveReservations_length_le
    intro id record hrow hreserved hahead howner
    obtain ⟨hrow', hahead'⟩ := hbefore id record hrow hreserved hahead howner
    exact List.mem_map.mpr ⟨(id, record), mem_liveReservations.mpr
      ⟨hrow', hreserved, hahead', howner⟩, rfl⟩
  rwa [List.length_map] at hids

def liveKeys (book : ReservationBook) (now : UnixMillis) : List LiveQuoteKey :=
  (book.liveQuotesByOwner.toList.map Prod.fst).filter fun key => liveQuoteKey (now + 1) 0 0 ≤ key

theorem mem_liveKeys : liveQuoteKey deadline owner id ∈ book.liveKeys now ↔
      book.liveQuotesByOwner[liveQuoteKey deadline owner id]? = some () ∧ now < deadline := by
  have hkeys : liveQuoteKey deadline owner id ∈ book.liveQuotesByOwner.toList.map Prod.fst ↔
      book.liveQuotesByOwner[liveQuoteKey deadline owner id]? = some () := by
    rw [List.mem_map]
    constructor
    · rintro ⟨⟨key, value⟩, hrow, rfl⟩
      exact Table.mem_toList_iff.mp hrow
    · intro hrow
      exact ⟨_, Table.mem_toList_iff.mpr hrow, rfl⟩
  have hahead : liveQuoteKey (now + 1) 0 0 ≤ liveQuoteKey deadline owner id ↔ now < deadline := by
    have howner : (toLex ((0 : ℕ), (0 : ℕ)) : OwnerId ×ₗ ReservationId) ≤ toLex (owner, id) := by
      rw [Prod.Lex.toLex_le_toLex]
      rcases Nat.eq_zero_or_pos owner with hzero | hpos
      · exact .inr ⟨hzero.symm, Nat.zero_le id⟩
      · exact .inl hpos
    rw [liveQuoteKey, liveQuoteKey, Prod.Lex.toLex_le_toLex]
    constructor
    · intro hle
      have hdeadline : now + 1 ≤ deadline := by
        rcases hle with hlt | ⟨heq, -⟩
        · exact Nat.le_of_lt hlt
        · exact Nat.le_of_eq heq
      exact hdeadline
    · intro hlt
      rcases (Nat.succ_le_of_lt hlt).lt_or_eq with hless | heq
      · exact .inl hless
      · exact .inr ⟨heq, howner⟩
  unfold liveKeys
  rw [List.mem_filter, hkeys, decide_eq_true_iff, hahead]

theorem countLiveQuote_eq_ok {counts result : ℕ × ℕ} {key : LiveQuoteKey}
    (hcount : countLiveQuote owner policy now counts key = .ok result)
    (howner : counts.2 < policy.maximumLiveQuotesPerOwner) :
    result.1 = counts.1 + 1 ∧
      result.2 = counts.2 + (if (ofLex (ofLex key).2).1 = owner then 1 else 0) ∧
      result.1 < policy.maximumLiveQuotesGlobal ∧ result.2 < policy.maximumLiveQuotesPerOwner := by
  by_cases hcase : (ofLex (ofLex key).2).1 = owner
  · simp only [countLiveQuote, if_pos hcase, bind_eq_ok, require_eq_ok, okOr_eq_ok,
      checkedAdd_eq_some, pure_eq_ok] at hcount ⊢
    obtain ⟨_, -, globalLive, ⟨hglobal, -⟩, ownerLive, ⟨hmine, -⟩, _, hperOwner, _,
      hlimit, rfl⟩ := hcount
    exact ⟨hglobal.symm, hmine.symm, not_le.mp hlimit, not_le.mp fun hle => hperOwner ⟨hcase, hle⟩⟩
  · simp only [countLiveQuote, if_neg hcase, bind_eq_ok, require_eq_ok, okOr_eq_ok,
      checkedAdd_eq_some, pure_eq_ok, Except.ok.injEq] at hcount ⊢
    obtain ⟨_, -, globalLive, ⟨hglobal, -⟩, _, rfl, _, -, _, hlimit, rfl⟩ := hcount
    exact ⟨hglobal.symm, rfl, not_le.mp hlimit, howner⟩

theorem foldlM_countLiveQuote {keys : List LiveQuoteKey} {counts result : ℕ × ℕ}
    (hfold : keys.foldlM (countLiveQuote owner policy now) counts = .ok result)
    (hglobal : counts.1 < policy.maximumLiveQuotesGlobal)
    (howner : counts.2 < policy.maximumLiveQuotesPerOwner) :
    counts.1 + keys.length < policy.maximumLiveQuotesGlobal ∧
      counts.2 + (keys.filter fun key => (ofLex (ofLex key).2).1 = owner).length <
        policy.maximumLiveQuotesPerOwner := by
  induction keys generalizing counts with
  | nil => exact ⟨hglobal, howner⟩
  | cons key rest ih =>
    rw [List.foldlM_cons, bind_eq_ok] at hfold
    obtain ⟨counted, hcount, hrest⟩ := hfold
    obtain ⟨hone, htwo, hone', htwo'⟩ := countLiveQuote_eq_ok hcount howner
    have hlimits := ih hrest hone' htwo'
    rw [hone, htwo] at hlimits
    by_cases hcase : (ofLex (ofLex key).2).1 = owner
    · rw [if_pos hcase] at hlimits
      rw [List.filter_cons_of_pos (by simpa using hcase), List.length_cons, List.length_cons]
      omega
    · rw [if_neg hcase] at hlimits
      rw [List.filter_cons_of_neg (by simpa using hcase), List.length_cons]
      omega

theorem enforceLiveQuoteLimits_eq_ok
    (hlimits : book.enforceLiveQuoteLimits owner policy now = .ok ()) (hnow : now + 1 < 2 ^ 64) :
    (book.liveKeys now).length < policy.maximumLiveQuotesGlobal ∧
      ((book.liveKeys now).filter fun key =>
        (ofLex (ofLex key).2).1 = owner).length < policy.maximumLiveQuotesPerOwner := by
  have hfirst : checkedAdd 64 now 1 = some (now + 1) := checkedAdd_eq_some.mpr ⟨rfl, hnow⟩
  simp only [enforceLiveQuoteLimits, hfirst, bind_eq_ok] at hlimits
  obtain ⟨counts, hfold, -⟩ := hlimits
  obtain ⟨hglobal, howner⟩ := foldlM_countLiveQuote hfold policy.limits.2.1 policy.limits.1
  rw [zero_add] at hglobal howner
  exact ⟨hglobal, howner⟩

/-! ## Every reservation has a quote -/

/-- The reservations of the provider come from firm quotes. -/
def Quoted (book : ReservationBook) : Prop :=
  ∀ (id : ReservationId) (record : StoredReservation), book.reservations[id]? = some record →
    record.quote ≠ none

theorem Creates.quoted (hcreates : Creates crypto now book record) : record.quote ≠ none := by
  obtain ⟨quote, hchecked⟩ := hcreates.checked
  simp only [checkNewReservation, bind_eq_ok, okOr_eq_ok] at hchecked
  obtain ⟨_, -, stored, hstored, -⟩ := hchecked
  simp [hstored]

theorem Quoted.step (hquoted : Quoted book) (hstep : Transition crypto now book next) :
    Quoted next := by
  -- A replaced row has the quote of the row before.
  have hput : ∀ record new : StoredReservation,
      next.reservations = book.reservations.insert record.id new →
      new.quote ≠ none → Quoted next := by
    intro record new hrows hnew id other hother
    rw [hrows, Table.row_insert] at hother
    by_cases hcase : record.id = id
    · rw [if_pos hcase] at hother
      cases hother
      exact hnew
    · rw [if_neg hcase] at hother
      exact hquoted id other hother
  cases hstep with
  | imported hvalid hnew hsequence => exact hquoted
  | @created record hcreates => exact hput record record rfl hcreates.quoted
  | @released record _ hrow | @committed record _ _ _ hrow | @signed record _ _ hrow =>
    exact hput record _ rfl (hquoted _ record hrow)

theorem Quoted.timed (hquoted : Quoted book) (htimed : Timed crypto now book next) :
    Quoted next := by
  rcases htimed with rfl | ⟨observed, hobserve, hwrites⟩
  · exact hquoted
  · have hobserved : Quoted observed := by
      rw [(observeTime_eq_ok.mp hobserve).2]
      exact hquoted
    induction hwrites with
    | refl => exact hobserved
    | tail _ hstep ih => exact ih.step hstep

/-! ## The quotas -/

/-- A time the clock of the book may show. -/
def Observable (book : ReservationBook) (time : UnixMillis) : Prop :=
  ∀ mark, book.lastObservedTime = some mark → mark ≤ time

def WithinQuotas (policy : QuoteEnginePolicy) (book : ReservationBook) : Prop :=
  ∀ time, book.Observable time →
    (∀ owner, (book.liveReservations time (· = owner)).length ≤ policy.maximumLiveQuotesPerOwner) ∧
    (book.liveReservations time fun _ => true).length ≤ policy.maximumLiveQuotesGlobal

theorem Settles.reserved (hstep : Settles crypto now book next)
    (hrow : next.reservations[id]? = some record)
    (hreserved : record.state = .reserved) : book.reservations[id]? = some record := by
  obtain ⟨htransition, hkeys⟩ := hstep
  have hput : ∀ other new : StoredReservation, new.state ≠ .reserved →
      next.reservations = book.reservations.insert other.id new →
      book.reservations[id]? = some record := by
    intro other new hnew hrows
    rw [hrows, Table.row_insert] at hrow
    by_cases hcase : other.id = id
    · rw [if_pos hcase] at hrow
      cases hrow
      exact absurd hreserved hnew
    · rwa [if_neg hcase] at hrow
  cases htransition with
  | imported hvalid hnew hsequence => exact hrow
  | @created new hcreates =>
    have hkey := hcreates.freshKey
    rw [← hkeys] at hkey
    simp [afterCreate, putCreated, logged] at hkey
  | @released other reason hother hleaves hreason =>
    exact hput other (other.release reason now) (by simp [StoredReservation.release]) rfl
  | @committed other preSignPayload fee targets hother hleaves hcommits =>
    exact hput other (other.commit _) (by simp [StoredReservation.commit]) rfl
  | @signed other intent bytes hother hcommitted hbytes hsequence =>
    exact hput other (other.sign intent _) (by simp [StoredReservation.sign]) rfl

theorem Settling.live_le (hsettling : Settling crypto now book next) (owners : OwnerId → Bool) :
    (next.liveReservations time owners).length ≤ (book.liveReservations time owners).length := by
  induction hsettling with
  | refl => exact le_rfl
  | tail _ hstep ih =>
    refine le_trans ?_ ih
    apply liveReservations_length_le_of
    intro id record hrow hreserved hahead _
    exact ⟨hstep.reserved hrow hreserved, hahead⟩

theorem Settling.lastObservedTime_eq (hsettling : Settling crypto now book next) :
    next.lastObservedTime = book.lastObservedTime := by
  induction hsettling with
  | refl => rfl
  | tail _ hstep ih => exact hstep.1.lastObservedTime_eq.trans ih

theorem WithinQuotas.observe
    (hbook : WithinQuotas policy book) (hobserve : book.observeTime now = .ok next) :
    WithinQuotas policy next := by
  obtain ⟨hmark, rfl⟩ := observeTime_eq_ok.mp hobserve
  intro time htime
  have hnow : now ≤ time := htime now rfl
  exact hbook time fun mark hlast => (hmark mark hlast).trans hnow

theorem WithinQuotas.settling
    (hbook : WithinQuotas policy book) (hsettling : TimedSettling crypto now book next) :
    WithinQuotas policy next := by
  rcases hsettling with rfl | ⟨observed, hobserve, hsettling⟩
  · exact hbook
  · intro time htime
    have hlast : observed.Observable time := by
      intro mark hmark
      exact htime mark (hsettling.lastObservedTime_eq.trans hmark)
    obtain ⟨howner, hglobal⟩ := hbook.observe hobserve time hlast
    exact ⟨fun owner => (hsettling.live_le _).trans (howner owner),
      (hsettling.live_le _).trans hglobal⟩

theorem Integrity.live_lt (hbook : Integrity crypto book) (hquoted : Quoted book)
    (hlimits : book.enforceLiveQuoteLimits owner policy now = .ok ()) (hnow : now + 1 < 2 ^ 64) :
    (book.liveReservations now fun _ => true).length < policy.maximumLiveQuotesGlobal ∧
      (book.liveReservations now (· = owner)).length < policy.maximumLiveQuotesPerOwner := by
  have hindexed : ∀ (id : ReservationId) (record : StoredReservation),
      book.reservations[id]? = some record → record.state = .reserved →
      now < record.acceptBefore →
      liveQuoteKey record.acceptBefore record.owner id ∈ book.liveKeys now := by
    intro id record hrow hreserved hahead
    have hid := hbook.recordsKeyed id record hrow
    rw [← hid] at hrow ⊢
    exact mem_liveKeys.mpr ⟨(hbook.liveQuote_iff hrow).mpr
      ⟨hreserved, hquoted _ record hrow⟩, hahead⟩
  obtain ⟨hglobal, howner⟩ := enforceLiveQuoteLimits_eq_ok hlimits hnow
  constructor
  · refine lt_of_le_of_lt ?_ hglobal
    rw [← List.length_map fun key : LiveQuoteKey => (ofLex (ofLex key).2).2]
    apply liveReservations_length_le
    intro id record hrow hreserved hahead _
    exact List.mem_map.mpr ⟨_, hindexed id record hrow hreserved hahead, rfl⟩
  · refine lt_of_le_of_lt ?_ howner
    rw [← List.length_map fun key : LiveQuoteKey => (ofLex (ofLex key).2).2]
    apply liveReservations_length_le
    intro id record hrow hreserved hahead hmine
    refine List.mem_map.mpr ⟨_, List.mem_filter.mpr
      ⟨hindexed id record hrow hreserved hahead, ?_⟩, rfl⟩
    exact hmine

theorem live_afterCreate_le (book : ReservationBook) (record : StoredReservation)
    (time : UnixMillis) (owners : OwnerId → Bool) :
    ((book.afterCreate record).liveReservations time owners).length ≤
      (book.liveReservations time owners).length +
        if owners record.owner then 1 else 0 := by
  have hrows : ∀ (id : ReservationId) (other : StoredReservation),
      (book.afterCreate record).reservations[id]? = some other →
      id = record.id ∧ other = record ∨ book.reservations[id]? = some other := by
    intro id other hrow
    simp only [afterCreate, putCreated, logged, Table.row_insert] at hrow
    by_cases hcase : record.id = id
    · rw [if_pos hcase] at hrow
      cases hrow
      exact .inl ⟨hcase.symm, rfl⟩
    · rw [if_neg hcase] at hrow
      exact .inr hrow
  by_cases hmine : owners record.owner
  · have hle : ((book.afterCreate record).liveReservations time owners).length ≤
        (record.id :: (book.liveReservations time owners).map Prod.fst).length := by
      apply liveReservations_length_le
      intro id other hrow hreserved hahead howner
      rcases hrows id other hrow with ⟨rfl, -⟩ | hbefore
      · exact List.mem_cons_self
      · exact List.mem_cons_of_mem _ (List.mem_map.mpr
          ⟨_, mem_liveReservations.mpr ⟨hbefore, hreserved, hahead, howner⟩, rfl⟩)
    rw [if_pos hmine]
    rwa [List.length_cons, List.length_map] at hle
  · rw [if_neg hmine, add_zero]
    apply liveReservations_length_le_of
    intro id other hrow hreserved hahead howner
    rcases hrows id other hrow with ⟨rfl, rfl⟩ | hbefore
    · exact absurd howner hmine
    · exact ⟨hbefore, hahead⟩

theorem WithinQuotas.create (hbook : WithinQuotas policy book) (hintegrity : Integrity crypto book)
    (hquoted : Quoted book) (hnow : book.lastObservedTime = some now)
    (hadmits : Admits policy now book record) : WithinQuotas policy (book.afterCreate record) := by
  -- A quote without a time ahead has no deadline, so the limits were counted.
  have hroom : now + 1 < 2 ^ 64 := by
    have hrange := hadmits.inRange
    rw [hadmits.deadline] at hrange
    exact lt_of_le_of_lt (Nat.add_le_add_left policy.lifetime_pos now) hrange
  obtain ⟨hglobalLt, hownerLt⟩ := hintegrity.live_lt hquoted hadmits.limits hroom
  intro time htime
  have hlater : now ≤ time := htime now hnow
  obtain ⟨howner, hglobal⟩ := hbook time htime
  have hfewer : ∀ owners : OwnerId → Bool, (book.liveReservations time owners).length ≤
      (book.liveReservations now owners).length := fun owners =>
    liveReservations_length_le_of fun id other hrow hreserved hahead _ =>
      ⟨hrow, hlater.trans_lt hahead⟩
  constructor
  · intro owner
    have hle := live_afterCreate_le book record time (· = owner)
    by_cases hmine : record.owner = owner
    · subst hmine
      have := hfewer (· = record.owner)
      simp only [decide_true, if_true] at hle
      omega
    · simp only [hmine, decide_false, Bool.false_eq_true, if_false, add_zero] at hle
      exact hle.trans (howner owner)
  · have hle := live_afterCreate_le book record time fun _ => true
    have := hfewer fun _ => true
    simp only [if_true] at hle
    omega

/-! ## Sweeps -/

/-- The reserved reservations which are due, the oldest deadline first. -/
def dueReservations (book : ReservationBook) (time : UnixMillis) : List StoredReservation :=
  ((book.reservations.toList.map Prod.snd).filter fun record =>
    record.state = .reserved ∧ record.acceptBefore ≤ time).insertionSort
      fun record other => expirationKey record.acceptBefore record.id ≤
        expirationKey other.acceptBefore other.id

theorem mem_dueReservations (hbook : Integrity crypto book) :
    record ∈ book.dueReservations time ↔ book.reservations[record.id]? = some record ∧
      record.state = .reserved ∧ record.acceptBefore ≤ time := by
  unfold dueReservations
  rw [List.mem_insertionSort, List.mem_filter, decide_eq_true_iff, List.mem_map]
  constructor
  · rintro ⟨⟨⟨id, other⟩, hrow, rfl⟩, hdue⟩
    have hrow := Table.mem_toList_iff.mp hrow
    have hid := hbook.recordsKeyed id other hrow
    rw [← hid] at hrow
    exact ⟨hrow, hdue⟩
  · rintro ⟨hrow, hdue⟩
    exact ⟨⟨_, Table.mem_toList_iff.mpr hrow, rfl⟩, hdue⟩

theorem nodup_dueReservations (hbook : Integrity crypto book) :
    ((book.dueReservations time).map StoredReservation.id).Nodup := by
  have hperm := (List.perm_insertionSort
    (fun record other : StoredReservation => expirationKey record.acceptBefore record.id ≤
      expirationKey other.acceptBefore other.id)
    ((book.reservations.toList.map Prod.snd).filter fun record =>
      record.state = .reserved ∧ record.acceptBefore ≤ time)).map StoredReservation.id
  refine hperm.nodup_iff.mpr ?_
  refine List.Nodup.sublist (List.filter_sublist.map _) ?_
  have hkeys : (book.reservations.toList.map Prod.snd).map StoredReservation.id =
      book.reservations.toList.map Prod.fst := by
    rw [List.map_map]
    apply List.map_congr_left
    intro row hrow
    exact hbook.recordsKeyed row.1 row.2 (Table.mem_toList_iff.mp hrow)
  rw [hkeys]
  exact Table.nodup_keys book.reservations

theorem dueExpirations_eq (hbook : Integrity crypto book) (limit : ℕ) :
    book.dueExpirations time limit = ((book.dueReservations time).take limit).map
      fun record => expirationKey record.acceptBefore record.id := by
  have hsorted : (book.expirations.toList.map Prod.fst).Pairwise (· < ·) := by
    rw [List.pairwise_map]
    exact Table.sorted_toList book.expirations
  have hfilter : (book.expirations.toList.map Prod.fst).takeWhile
      (fun key => (ofLex key).1 ≤ time) =
      (book.expirations.toList.map Prod.fst).filter fun key => (ofLex key).1 ≤ time := by
    apply Table.takeWhile_eq_filter
    refine hsorted.imp ?_
    intro key later hlt hdue
    have hfirst : (ofLex key).1 ≤ (ofLex later).1 := by
      rcases Prod.Lex.lt_iff.mp hlt with hless | ⟨heq, -⟩
      · exact hless.le
      · exact heq.le
    simp only [decide_eq_true_iff] at hdue ⊢
    exact hfirst.trans hdue
  unfold dueExpirations
  rw [hfilter, List.map_take]
  congr 1
  -- Both lists are sorted and have the same keys.
  have hkeysSorted := hsorted.filter fun key => (ofLex key).1 ≤ time
  have hdueSorted : ((book.dueReservations time).map fun record =>
      expirationKey record.acceptBefore record.id).Pairwise (· ≤ ·) := by
    rw [List.pairwise_map]
    exact List.pairwise_insertionSort _ _
  have hperm : ((book.expirations.toList.map Prod.fst).filter
      fun key => (ofLex key).1 ≤ time).Perm ((book.dueReservations time).map
        fun record => expirationKey record.acceptBefore record.id) := by
    rw [List.perm_ext_iff_of_nodup (hkeysSorted.imp fun hlt => hlt.ne)]
    · intro key
      rw [List.mem_filter, List.mem_map, List.mem_map]
      constructor
      · rintro ⟨⟨⟨_, value⟩, hrow, rfl⟩, hdue⟩
        obtain ⟨record, hrecord, hreserved, hkey⟩ :=
          hbook.expiration_record (Table.mem_toList_iff.mp hrow)
        refine ⟨record, (mem_dueReservations hbook).mpr ⟨hrecord, hreserved, ?_⟩, hkey.symm⟩
        rw [hkey] at hdue
        exact of_decide_eq_true hdue
      · rintro ⟨record, hmem, rfl⟩
        obtain ⟨hrow, hreserved, hdue⟩ := (mem_dueReservations hbook).mp hmem
        exact ⟨⟨_, Table.mem_toList_iff.mpr ((hbook.expiration_iff hrow).mpr hreserved),
          rfl⟩, decide_eq_true hdue⟩
    · have hids : ((book.dueReservations time).map fun record =>
          expirationKey record.acceptBefore record.id).map (fun key => (ofLex key).2) =
          (book.dueReservations time).map StoredReservation.id := by
        rw [List.map_map]
        rfl
      apply List.Nodup.of_map fun key : ExpirationKey => (ofLex key).2
      rw [hids]
      exact nodup_dueReservations hbook
  apply hperm.eq_of_pairwise _ (hkeysSorted.imp le_of_lt) hdueSorted
  intro key later _ _ hle hge
  exact le_antisymm hle hge

theorem expireOne_eq_ok {key : ExpirationKey} {u : Unit} (hbook : Integrity crypto book)
    (hle : book.allocationRevision ≤ book.auditSequence) (hroom : book.auditSequence + 1 < 2 ^ 64)
    (hkey : book.expirations[key]? = some u) (hdue : (ofLex key).1 ≤ now) :
    ∃ record : StoredReservation, book.reservations[record.id]? = some record ∧
      record.state = .reserved ∧ key = expirationKey record.acceptBefore record.id ∧
      expireOne crypto now book key = .ok (book.afterRelease record .expired now) := by
  obtain ⟨record, hrow, hreserved, rfl⟩ := hbook.expiration_record hkey
  refine ⟨record, hrow, hreserved, rfl, ?_⟩
  simp only [expireOne, bind_eq_ok, requireReservation_eq_ok, require_eq_ok, releaseReserved_eq_ok]
  exact ⟨record, ⟨hrow, rfl, (hbook.records _ _ hrow).valid⟩, (), rfl, (), hreserved,
    (), hdue, hbook.leaves hle hroom hrow hreserved, rfl⟩

theorem foldlM_expireOne_eq_ok {keys : List ExpirationKey}
    (hbook : Integrity crypto book) (hnow : book.lastObservedTime = some now)
    (hle : book.allocationRevision ≤ book.auditSequence)
    (hroom : book.auditSequence + keys.length < 2 ^ 64) (hnodup : keys.Nodup)
    (hkeys : ∀ key ∈ keys, book.expirations[key]? = some () ∧ (ofLex key).1 ≤ now) :
    ∃ final, keys.foldlM (expireOne crypto now) book = .ok final := by
  induction keys generalizing book with
  | nil => exact ⟨book, rfl⟩
  | cons key rest ih =>
    obtain ⟨hfirst, hrest⟩ := List.nodup_cons.mp hnodup
    obtain ⟨hrow, hdue⟩ := hkeys key List.mem_cons_self
    rw [List.length_cons] at hroom
    obtain ⟨record, hrecord, hreserved, hkey, hstep⟩ :=
      expireOne_eq_ok hbook hle (by omega) hrow hdue
    have hleaves := hbook.leaves hle (by omega) hrecord hreserved
    have hrecordDue : record.acceptBefore ≤ now := by
      rw [hkey] at hdue
      exact hdue
    have hnext : Integrity crypto (book.afterRelease record .expired now) :=
      hbook.afterRelease hnow hrecord hleaves (iff_of_true rfl hrecordDue)
    rw [List.foldlM_cons, hstep, ok_bind]
    apply ih hnext hnow
    · exact Nat.succ_le_succ hle
    · have hsequence : (book.afterRelease record .expired now).auditSequence =
          book.auditSequence + 1 := rfl
      omega
    · exact hrest
    · intro other hother
      obtain ⟨hotherRow, hotherDue⟩ := hkeys other (List.mem_cons_of_mem _ hother)
      refine ⟨?_, hotherDue⟩
      have hne : key ≠ other := fun heq => hfirst (heq ▸ hother)
      rw [hkey] at hne
      simp only [afterRelease, leaveReserved, logged, Table.row_erase, if_neg hne]
      exact hotherRow

theorem foldlM_expireOne_row {keys : List ExpirationKey} {final : ReservationBook}
    (hfold : keys.foldlM (expireOne crypto now) book = .ok final) (id : ReservationId) :
    final.reservations[id]? =
      if id ∈ keys.map (fun key => (ofLex key).2) then
        book.reservations[id]?.map fun record => record.release .expired now
      else book.reservations[id]? := by
  induction keys generalizing book with
  | nil =>
    cases hfold
    rfl
  | cons key rest ih =>
    rw [List.foldlM_cons, bind_eq_ok] at hfold
    obtain ⟨middle, hstep, hrest⟩ := hfold
    simp only [expireOne, bind_eq_ok, requireReservation_eq_ok, require_eq_ok,
      releaseReserved_eq_ok] at hstep
    obtain ⟨record, ⟨hrow, hid, -⟩, -, -, -, -, -, -, -, rfl⟩ := hstep
    rw [ih hrest]
    simp only [afterRelease, leaveReserved, logged, Table.row_insert, List.map_cons, List.mem_cons]
    by_cases hcase : record.id = id
    · have hkey : id = (ofLex key).2 := by rw [← hcase, hid]
      rw [← hkey] at hrow
      simp only [if_pos hcase, if_pos (Or.inl hkey), hrow, Option.map_some]
      split <;> rfl
    · have hkey : id ≠ (ofLex key).2 := by
        rw [← hid]
        exact fun heq => hcase heq.symm
      simp only [if_neg hcase, hkey, false_or]

/-- A sweep releases exactly the first reservations which are due. -/
structure SweepsOldest (book next : ReservationBook) (now : UnixMillis) (limit : ℕ)
    (released : List ReservationId) : Prop where
  oldest : released = ((book.dueReservations now).take limit).map StoredReservation.id
  rows : ∀ id : ReservationId, next.reservations[id]? =
    if id ∈ released then
      book.reservations[id]?.map fun record => record.release .expired now
    else book.reservations[id]?

theorem expireDueInWrite_sweepsOldest {limit : ℕ} {released : List ReservationId}
    (hbook : Integrity crypto book)
    (hexpire : book.expireDueInWrite crypto now limit = .ok (released, next)) :
    SweepsOldest book next now limit released := by
  simp only [expireDueInWrite, bind_eq_ok, pure_eq_ok, Prod.mk.injEq] at hexpire
  obtain ⟨final, hfold, hreleased, rfl⟩ := hexpire
  constructor
  · rw [← hreleased, dueExpirations_eq hbook, List.map_map]
    rfl
  · intro id
    rw [← hreleased]
    exact foldlM_expireOne_row hfold id

theorem expireDueInWrite_eq_ok {limit : ℕ} (hbook : Integrity crypto book)
    (hnow : book.lastObservedTime = some now) (hle : book.allocationRevision ≤ book.auditSequence)
    (hroom : book.auditSequence + limit < 2 ^ 64) :
    ∃ released next, book.expireDueInWrite crypto now limit = .ok (released, next) := by
  have hkeys : ∀ key ∈ book.dueExpirations now limit,
      book.expirations[key]? = some () ∧ (ofLex key).1 ≤ now := by
    intro key hkey
    rw [dueExpirations_eq hbook, List.mem_map] at hkey
    obtain ⟨record, hrecord, rfl⟩ := hkey
    obtain ⟨hrow, hreserved, hdue⟩ := (mem_dueReservations hbook).mp (List.mem_of_mem_take hrecord)
    exact ⟨(hbook.expiration_iff hrow).mpr hreserved, hdue⟩
  have hnodup : (book.dueExpirations now limit).Nodup := by
    have hsorted : (book.expirations.toList.map Prod.fst).Nodup := Table.nodup_keys book.expirations
    exact hsorted.sublist ((List.take_sublist _ _).trans (List.takeWhile_sublist _))
  have hlength : (book.dueExpirations now limit).length ≤ limit := List.length_take_le _ _
  obtain ⟨final, hfold⟩ := foldlM_expireOne_eq_ok hbook hnow hle (by omega) hnodup hkeys
  refine ⟨(book.dueExpirations now limit).map fun key => (ofLex key).2, final, ?_⟩
  simp only [expireDueInWrite, bind_eq_ok, pure_eq_ok]
  exact ⟨final, hfold, rfl⟩

/-! ## Runs under one policy -/

/-- What holds of a book while all quotes are made under one policy. -/
structure Metered (crypto : ProviderCrypto) (policy : QuoteEnginePolicy)
    (book : ReservationBook) : Prop where
  integrity : Integrity crypto book
  quoted : Quoted book
  revision : book.allocationRevision ≤ book.auditSequence
  quotas : WithinQuotas policy book

theorem Metered.empty (policy : QuoteEnginePolicy) (identity : ProviderIdentity) :
    Metered crypto policy { identity } := by
  refine ⟨.empty identity, ?_, le_rfl, ?_⟩
  · intro id record hrow
    simp at hrow
  · intro time _
    have hnone : ∀ owners, ({ identity } : ReservationBook).liveReservations time owners = [] := by
      intro owners
      simp [liveReservations]
    simp [hnone]

theorem Metered.step (hbook : Metered crypto policy book)
    (operation : Operation) (hpolicy : ∀ other ∈ operation.policy?, other = policy) :
    Metered crypto policy (operation.apply crypto now book).2 := by
  have htimed : Timed crypto now book (operation.apply crypto now book).2 := apply_timed operation
  refine ⟨htimed.integrity hbook.integrity, hbook.quoted.timed htimed,
    htimed.revision_le hbook.revision, ?_⟩
  cases hcreates : operation.creates with
  | false => exact hbook.quotas.settling (apply_settling operation hcreates)
  | true =>
    cases operation with
    | reserveFirmQuoteFromSnapshot owner key digest draft other observedAt maximumAge =>
      cases hpolicy other rfl
      rcases reserveFirmQuoteFromSnapshot_admits owner key digest draft policy
          observedAt maximumAge with
        hsettling | ⟨observed, record, hobserve, -, hadmits, hnext⟩
      · exact hbook.quotas.settling hsettling
      · have hquoted : Quoted observed := by
          rw [(observeTime_eq_ok.mp hobserve).2]
          exact hbook.quoted
        have hnow : observed.lastObservedTime = some now := by
          rw [(observeTime_eq_ok.mp hobserve).2]
        have hquotas := (hbook.quotas.observe hobserve).create
          (hbook.integrity.observeTime hobserve) hquoted hnow hadmits
        rw [← hnext] at hquotas
        exact hquotas
    | _ => cases hcreates

theorem run_metered (hbook : Metered crypto policy book)
    (steps : List Step) (hpolicy : ∀ step ∈ steps, ∀ other ∈ step.1.policy?, other = policy) :
    Metered crypto policy (run crypto book steps) := by
  induction steps generalizing book with
  | nil => exact hbook
  | cons step rest ih =>
    apply ih
    · exact hbook.step step.1 (hpolicy step List.mem_cons_self)
    · exact fun later hlater => hpolicy later (List.mem_cons_of_mem _ hlater)

/-- In every run under one policy the live quotes stay within its quotas, the
deadline tables have exactly the rows of the reserved reservations, and a sweep
releases exactly the reservations with the oldest deadlines which are due. -/
theorem live_quotes_metered (crypto : ProviderCrypto) (identity : ProviderIdentity)
    (policy : QuoteEnginePolicy) (steps : List Step)
    (hpolicy : ∀ step ∈ steps, ∀ other ∈ step.1.policy?, other = policy)
    (book : ReservationBook) (hbook : book = run crypto { identity } steps) :
    -- the quotas
    (∀ time, book.Observable time → (∀ owner, (book.liveReservations time (· = owner)).length ≤
        policy.maximumLiveQuotesPerOwner) ∧
      (book.liveReservations time fun _ => true).length ≤ policy.maximumLiveQuotesGlobal) ∧
    -- the tables
    (∀ key : ExpirationKey, book.expirations[key]? = some () ↔
      ∃ record : StoredReservation, book.reservations[record.id]? = some record ∧
        record.state = .reserved ∧ key = expirationKey record.acceptBefore record.id) ∧
    (∀ key : LiveQuoteKey, book.liveQuotesByOwner[key]? = some () ↔
      ∃ record : StoredReservation, book.reservations[record.id]? = some record ∧
        record.state = .reserved ∧ key = liveQuoteKey record.acceptBefore record.owner record.id) ∧
    -- the order of their keys as bytes
    (∀ deadline deadline' owner owner' id id', deadline < 2 ^ 64 → deadline' < 2 ^ 64 →
      owner < 2 ^ 256 → owner' < 2 ^ 256 → id < 2 ^ 256 → id' < 2 ^ 256 →
      (encodeExpirationKey (expirationKey deadline id) <
          encodeExpirationKey (expirationKey deadline' id') ↔
        expirationKey deadline id < expirationKey deadline' id') ∧
      (encodeLiveQuoteKey (liveQuoteKey deadline owner id) <
          encodeLiveQuoteKey (liveQuoteKey deadline' owner' id') ↔
        liveQuoteKey deadline owner id < liveQuoteKey deadline' owner' id')) ∧
    -- the sweeps
    ∀ now limit observed, book.observeTime now = .ok observed → (∀ released next,
        observed.expireDueInWrite crypto now limit = .ok (released, next) →
        SweepsOldest observed next now limit released) ∧
      (book.auditSequence + limit < 2 ^ 64 →
        ∃ released next, observed.expireDueInWrite crypto now limit = .ok (released, next)) ∧
      (limit ≠ 0 → book.auditSequence + min limit 256 < 2 ^ 64 →
        ∃ released next, book.expireDue crypto now limit = (.ok released, next) ∧
          SweepsOldest observed next now (min limit 256) released) := by
  have hmetered : Metered crypto policy book := by
    rw [hbook]
    exact run_metered (.empty policy identity) steps hpolicy
  refine ⟨hmetered.quotas, ?_, ?_, ?_, ?_⟩
  · intro key
    constructor
    · intro hkey
      exact hmetered.integrity.expiration_record hkey
    · rintro ⟨record, hrow, hreserved, rfl⟩
      exact (hmetered.integrity.expiration_iff hrow).mpr hreserved
  · intro key
    constructor
    · intro hkey
      obtain ⟨record, hrow, ⟨hreserved, -⟩, hentry⟩ := hmetered.integrity.liveQuote_record hkey
      exact ⟨record, hrow, hreserved, hentry⟩
    · rintro ⟨record, hrow, hreserved, rfl⟩
      exact (hmetered.integrity.liveQuote_iff hrow).mpr ⟨hreserved, hmetered.quoted _ record hrow⟩
  · intro deadline deadline' owner owner' id id' hdeadline hdeadline' howner howner' hid hid'
    exact ⟨encodeExpirationKey_lt_iff hdeadline hdeadline' hid hid',
      encodeLiveQuoteKey_lt_iff hdeadline hdeadline' howner howner' hid hid'⟩
  · intro now limit observed hobserve
    have hintegrity := hmetered.integrity.observeTime hobserve
    have hroom : ∀ {limit}, book.auditSequence + limit < 2 ^ 64 →
        ∃ released next, observed.expireDueInWrite crypto now limit = .ok (released, next) := by
      obtain ⟨-, rfl⟩ := observeTime_eq_ok.mp hobserve
      exact expireDueInWrite_eq_ok hintegrity rfl hmetered.revision
    refine ⟨fun released next hexpire => expireDueInWrite_sweepsOldest hintegrity hexpire,
      hroom, fun hlimit hfits => ?_⟩
    obtain ⟨released, next, hexpire⟩ := hroom hfits
    refine ⟨released, next, ?_, expireDueInWrite_sweepsOldest hintegrity hexpire⟩
    rw [expireDue, if_neg hlimit, timedWrite, hobserve]
    simp only [maxExpirationBatch, hexpire, ok_bind]
    rfl

def twoQuotes : List Step :=
  [(.importInventoryBatch [sampleInventoryItem, ⟨⟨⟨7, 1⟩, 10, 50, 1, 1, 9⟩, by decide⟩], 1),
    (.reserveFirmQuoteFromSnapshot 20 30 1 sampleDraft samplePolicy 1 5, 2),
    (.reserveFirmQuoteFromSnapshot 20 31 1 { sampleDraft with
      snapshot := ⟨⟨0, 0⟩, 0, 1, 5⟩
      contribution := ⟨[⟨1, ⟨7, 1⟩, sampleTxOut, 9⟩], sampleDraft.contribution.outputs⟩ }
      samplePolicy 1 5, 3)]

/-- With two live quotes the sample book is at its quota, and a sweep at the first
deadline releases the first. -/
theorem sample_quotes_metered :
    let book := run sampleCrypto { identity := sampleIdentity } twoQuotes
    (book.liveReservations 3 fun _ => true).length = 2 ∧ WithinQuotas samplePolicy book ∧
    ∃ observed next, book.expireDue sampleCrypto 12 5 = (.ok [50], next) ∧
      SweepsOldest observed next 12 5 [50] := by
  intro book
  have hmetered := live_quotes_metered sampleCrypto sampleIdentity samplePolicy twoQuotes
    (by simp [twoQuotes, Operation.policy?]) book rfl
  have hobserved : isOkAnd (book.observeTime 12) (fun _ => True) = true := by decide +kernel
  obtain ⟨observed, hobserve, -⟩ := isOkAnd_iff.mp hobserved
  obtain ⟨released, next, hexpire, hsweeps⟩ :=
    (hmetered.2.2.2.2 12 5 observed hobserve).2.2 (by decide) (by decide +kernel)
  have hanswer : (book.expireDue sampleCrypto 12 5).1.toOption = some [50] := by decide +kernel
  rw [hexpire] at hanswer
  cases Option.some.inj hanswer
  exact ⟨by decide +kernel, hmetered.1, observed, next, hexpire, hsweeps⟩

end ReservationBook

end DeadcatNode
