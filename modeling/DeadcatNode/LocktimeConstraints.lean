import DeadcatNode.CheckedExecution

/-!
# Locktimes of composed transactions

Every contribution to a composed transaction may ask for an absolute locktime.
The composer folds the requests into a running minimum and an exact value and
takes the least locktime which meets all of them.
-/

namespace DeadcatNode

open Checked

/-- Consensus values below the threshold count blocks, the others seconds. -/
def lockTimeThreshold : ℕ := 500000000

inductive LockTime where
  | blocks (height : ℕ) (hheight : height < lockTimeThreshold)
  | seconds (time : ℕ) (htime : lockTimeThreshold ≤ time ∧ time < 2 ^ 32)
deriving DecidableEq

namespace LockTime

def zero : LockTime := .blocks 0 (by decide)

def toConsensusU32 : LockTime → ℕ
  | .blocks height _ => height
  | .seconds time _ => time

def isSameUnit : LockTime → LockTime → Bool
  | .blocks _ _, .blocks _ _ => true
  | .seconds _ _, .seconds _ _ => true
  | _, _ => false

end LockTime

inductive LockTimeConstraint where
  | unconstrained
  | atLeast (candidate : LockTime)
  | exact (candidate : LockTime)
deriving DecidableEq

inductive LockTimeError where
  | incompatibleLockTimeUnits
  | incompatibleExactLockTimes
  | exactLockTimeBelowMinimum
deriving DecidableEq

/-- The accumulators of `resolveLocktime`. -/
structure LockTimeBounds where
  minimum : Option LockTime := none
  exact : Option LockTime := none

namespace LockTimeBounds

def raiseMinimum (bounds : LockTimeBounds) (candidate : LockTime) :
    Except LockTimeError LockTimeBounds :=
  match bounds.minimum with
  | none => .ok { bounds with minimum := some candidate }
  | some current =>
    if current.isSameUnit candidate then
      .ok { bounds with
        minimum := some
          (if candidate.toConsensusU32 ≤ current.toConsensusU32 then current
            else candidate) }
    else .error .incompatibleLockTimeUnits

def add (bounds : LockTimeBounds) : LockTimeConstraint → Except LockTimeError LockTimeBounds
  | .unconstrained => .ok bounds
  | .atLeast candidate =>
    if candidate = .zero then .ok bounds else bounds.raiseMinimum candidate
  | .exact candidate => do
      require (∀ current ∈ bounds.exact, current = candidate) .incompatibleExactLockTimes
      return { bounds with exact := some candidate }

def resolve (bounds : LockTimeBounds) : Except LockTimeError LockTime :=
  match bounds.exact with
  | some exact => do
      require (∀ minimum ∈ bounds.minimum, exact.isSameUnit minimum = true ∧
          minimum.toConsensusU32 ≤ exact.toConsensusU32) .exactLockTimeBelowMinimum
      return exact
  | none => .ok (bounds.minimum.getD .zero)

end LockTimeBounds

def resolveLocktime (constraints : List LockTimeConstraint) : Except LockTimeError LockTime := do
  let bounds ← constraints.foldlM LockTimeBounds.add {}
  bounds.resolve

/-! ## Locktimes in order -/

variable {candidate : LockTime}

namespace LockTime

def Reaches (locktime candidate : LockTime) : Prop :=
  locktime.isSameUnit candidate = true ∧ candidate.toConsensusU32 ≤ locktime.toConsensusU32

/-- What a constraint asks of the locktime of the transaction. -/
def Meets (locktime : LockTime) : LockTimeConstraint → Prop
  | .unconstrained => True
  | .atLeast candidate => candidate = .zero ∨ locktime.Reaches candidate
  | .exact candidate => locktime = candidate

def MeetsAll (locktime : LockTime) (constraints : List LockTimeConstraint) : Prop :=
  ∀ constraint ∈ constraints, locktime.Meets constraint

theorem isSameUnit_comm (a b : LockTime) : a.isSameUnit b = b.isSameUnit a := by
  cases a <;> cases b <;> rfl

theorem isSameUnit_trans {a b c : LockTime} (hab : a.isSameUnit b = true)
    (hbc : b.isSameUnit c = true) : a.isSameUnit c = true := by
  cases a <;> cases b <;> cases c <;> simp_all [isSameUnit]

theorem Reaches.refl (a : LockTime) : a.Reaches a := by
  cases a <;> exact ⟨rfl, le_rfl⟩

theorem Reaches.trans {a b c : LockTime} (hab : a.Reaches b) (hbc : b.Reaches c) : a.Reaches c :=
  ⟨isSameUnit_trans hab.1 hbc.1, hbc.2.trans hab.2⟩

theorem eq_zero_of_zero_reaches (hreaches : zero.Reaches candidate) : candidate = .zero := by
  obtain ⟨hunit, hle⟩ := hreaches
  cases candidate with
  | blocks height hheight =>
    have hheight : height = 0 := Nat.le_zero.mp hle
    subst hheight
    rfl
  | seconds => cases hunit

end LockTime

/-! ## What the accumulators stand for -/

variable {error : LockTimeError}

namespace LockTimeBounds

open LockTime

/-- The locktimes which meet the constraints seen so far. -/
def Admits (bounds : LockTimeBounds) (locktime : LockTime) : Prop :=
  (∀ minimum ∈ bounds.minimum, locktime.Reaches minimum) ∧ ∀ exact ∈ bounds.exact, locktime = exact

variable {bounds next : LockTimeBounds} {locktime : LockTime}

theorem raiseMinimum_admits (hraise : bounds.raiseMinimum candidate = .ok next) :
    next.Admits locktime ↔ bounds.Admits locktime ∧ locktime.Reaches candidate := by
  unfold raiseMinimum at hraise
  split at hraise
  · next hnone =>
    cases hraise
    simp only [Admits, hnone, Option.mem_def, Option.some.injEq,
      forall_eq', reduceCtorEq, false_implies, implies_true, true_and]
    exact and_comm
  · next current hcurrent =>
    split at hraise
    · next hunit =>
      cases hraise
      simp only [Admits, hcurrent, Option.mem_def, Option.some.injEq, forall_eq']
      -- The larger of the two is reached exactly when both are.
      split
      · next hle =>
        have hreaches : current.Reaches candidate := ⟨hunit, hle⟩
        constructor
        · intro h
          exact ⟨h, h.1.trans hreaches⟩
        · exact fun h => h.1
      · next hlt =>
        have hreaches : candidate.Reaches current :=
          ⟨isSameUnit_comm candidate current ▸ hunit, (not_le.mp hlt).le⟩
        constructor
        · intro h
          exact ⟨⟨h.1.trans hreaches, h.2⟩, h.1⟩
        · exact fun h => ⟨h.2, h.1.2⟩
    · cases hraise

theorem raiseMinimum_error (hraise : bounds.raiseMinimum candidate = .error error) :
    ¬(bounds.Admits locktime ∧ locktime.Reaches candidate) := by
  unfold raiseMinimum at hraise
  split at hraise
  · cases hraise
  · next current hcurrent =>
    split at hraise
    · cases hraise
    · next hunit =>
      rintro ⟨hadmits, hreaches⟩
      have hsame : current.isSameUnit locktime = true :=
        isSameUnit_comm locktime current ▸ (hadmits.1 current hcurrent).1
      exact hunit (isSameUnit_trans hsame hreaches.1)

variable {constraint : LockTimeConstraint}

theorem add_admits (hadd : bounds.add constraint = .ok next) :
    next.Admits locktime ↔ bounds.Admits locktime ∧ locktime.Meets constraint := by
  cases constraint with
  | unconstrained =>
    cases hadd
    simp [Meets]
  | atLeast candidate =>
    simp only [add] at hadd
    split at hadd
    · next hzero =>
      cases hadd
      simp [Meets, hzero]
    · next hzero => simp [Meets, hzero, raiseMinimum_admits hadd]
  | exact candidate =>
    simp only [add, bind_eq_ok, require_eq_ok, pure_eq_ok] at hadd
    obtain ⟨-, hsame, rfl⟩ := hadd
    simp only [Admits, Meets, Option.mem_def, Option.some.injEq, forall_eq']
    constructor
    · rintro ⟨hminimum, rfl⟩
      exact ⟨⟨hminimum, fun current hcurrent => (hsame current hcurrent).symm⟩, rfl⟩
    · exact fun h => ⟨h.1.1, h.2⟩

theorem add_error (hadd : bounds.add constraint = .error error) :
    ¬(bounds.Admits locktime ∧ locktime.Meets constraint) := by
  cases constraint with
  | unconstrained => cases hadd
  | atLeast candidate =>
    simp only [add] at hadd
    split at hadd
    · cases hadd
    · next hzero => simpa [Meets, hzero] using raiseMinimum_error hadd
  | exact candidate =>
    rintro ⟨hadmits, rfl⟩
    have hsame : ∀ current ∈ bounds.exact, current = locktime :=
      fun current hcurrent => (hadmits.2 current hcurrent).symm
    have hok : bounds.add (.exact locktime) = .ok { bounds with exact := some locktime } := by
      rw [add, bind_eq_ok]
      exact ⟨(), require_eq_ok.mpr hsame, rfl⟩
    cases hok.symm.trans hadd

theorem add_minimum_ne_zero (hadd : bounds.add constraint = .ok next)
    (hminimum : ∀ minimum ∈ bounds.minimum, minimum ≠ .zero) :
    ∀ minimum ∈ next.minimum, minimum ≠ .zero := by
  cases constraint with
  | unconstrained =>
    cases hadd
    exact hminimum
  | atLeast candidate =>
    simp only [add, raiseMinimum] at hadd
    split at hadd
    · cases hadd
      exact hminimum
    next hzero =>
    split at hadd
    · cases hadd
      simpa using hzero
    next current hcurrent =>
    split at hadd
    · cases hadd
      have hcurrent := hminimum current hcurrent
      simp only [Option.mem_def, Option.some.injEq, forall_eq']
      split
      · exact hcurrent
      · exact hzero
    · cases hadd
  | exact candidate =>
    simp only [add, bind_eq_ok, require_eq_ok, pure_eq_ok] at hadd
    obtain ⟨-, -, rfl⟩ := hadd
    exact hminimum

variable {constraints : List LockTimeConstraint}

theorem foldlM_add_admits (hfold : constraints.foldlM add bounds = .ok next) :
    next.Admits locktime ↔ bounds.Admits locktime ∧ locktime.MeetsAll constraints := by
  induction constraints generalizing bounds with
  | nil =>
    cases hfold
    simp [MeetsAll]
  | cons constraint constraints ih =>
    rw [List.foldlM_cons, bind_eq_ok] at hfold
    obtain ⟨middle, hadd, hfold⟩ := hfold
    rw [ih hfold, add_admits hadd, MeetsAll, MeetsAll, List.forall_mem_cons, and_assoc]

theorem foldlM_add_error (hfold : constraints.foldlM add bounds = .error error) :
    ¬(bounds.Admits locktime ∧ locktime.MeetsAll constraints) := by
  induction constraints generalizing bounds with
  | nil => cases hfold
  | cons constraint constraints ih =>
    rw [MeetsAll, List.forall_mem_cons, ← and_assoc]
    rintro ⟨hfirst, hrest⟩
    rw [List.foldlM_cons] at hfold
    cases hadd : bounds.add constraint with
    | error => exact add_error hadd hfirst
    | ok middle =>
      rw [hadd, ok_bind] at hfold
      exact ih hfold ⟨(add_admits hadd).mpr hfirst, hrest⟩

theorem resolve_admits (hresolve : bounds.resolve = .ok locktime) : bounds.Admits locktime := by
  unfold resolve at hresolve
  split at hresolve
  · next exact hexact =>
    simp only [bind_eq_ok, require_eq_ok, pure_eq_ok] at hresolve
    obtain ⟨-, hminimum, rfl⟩ := hresolve
    refine ⟨hminimum, ?_⟩
    intro other hother
    exact Option.some.inj (hexact.symm.trans hother)
  · next hexact =>
    cases hresolve
    cases hminimum : bounds.minimum with
    | none => simp [Admits, hminimum, hexact]
    | some minimum =>
      have hreaches : minimum.Reaches minimum := Reaches.refl minimum
      simp [Admits, hminimum, hexact, hreaches]

theorem resolve_error (hresolve : bounds.resolve = .error error) : ¬bounds.Admits locktime := by
  intro hadmits
  unfold resolve at hresolve
  split at hresolve
  · next exact hexact =>
    have hsame : locktime = exact := hadmits.2 exact hexact
    subst hsame
    have hok : (do
        require (∀ minimum ∈ bounds.minimum, locktime.isSameUnit minimum = true ∧
              minimum.toConsensusU32 ≤ locktime.toConsensusU32)
          LockTimeError.exactLockTimeBelowMinimum
        return locktime) = Except.ok locktime := by
      rw [bind_eq_ok]
      exact ⟨(), require_eq_ok.mpr hadmits.1, rfl⟩
    cases hok.symm.trans hresolve
  · cases hresolve

theorem resolve_least (hminimum : ∀ minimum ∈ bounds.minimum, minimum ≠ .zero)
    (hresolve : bounds.resolve = .ok locktime) {other : LockTime} (hother : bounds.Admits other) :
    (other = .zero → locktime = .zero) ∧
      (¬bounds.Admits .zero → locktime.toConsensusU32 ≤ other.toConsensusU32) := by
  unfold resolve at hresolve
  split at hresolve
  · next exact hexact =>
    simp only [bind_eq_ok, pure_eq_ok] at hresolve
    obtain ⟨-, -, rfl⟩ := hresolve
    have hsame : other = exact := hother.2 exact hexact
    exact ⟨fun hzero => hsame ▸ hzero, fun _ => hsame ▸ le_rfl⟩
  · next hexact =>
    cases hresolve
    cases hrow : bounds.minimum with
    | none =>
      refine ⟨fun _ => rfl, fun hzero => ?_⟩
      exact absurd (by simp [Admits, hrow, hexact]) hzero
    | some minimum =>
      have hreaches := hother.1 minimum hrow
      refine ⟨?_, fun _ => hreaches.2⟩
      rintro rfl
      exact absurd (eq_zero_of_zero_reaches hreaches) (hminimum minimum hrow)

end LockTimeBounds

/-! ## The resolved locktime -/

section

variable {constraints : List LockTimeConstraint} {locktime : LockTime}

theorem LockTimeBounds.admits_start (locktime : LockTime) :
    ({} : LockTimeBounds).Admits locktime := by
  simp [Admits]

theorem resolveLocktime_meets (hresolve : resolveLocktime constraints = .ok locktime) :
    locktime.MeetsAll constraints := by
  simp only [resolveLocktime, bind_eq_ok] at hresolve
  obtain ⟨bounds, hfold, hresolve⟩ := hresolve
  exact ((LockTimeBounds.foldlM_add_admits hfold).mp (LockTimeBounds.resolve_admits hresolve)).2

theorem resolveLocktime_error
    (hresolve : resolveLocktime constraints = .error error) : ¬locktime.MeetsAll constraints := by
  intro hmeets
  have hstart := LockTimeBounds.admits_start locktime
  unfold resolveLocktime at hresolve
  cases hfold : constraints.foldlM LockTimeBounds.add {} with
  | error =>
    exact LockTimeBounds.foldlM_add_error hfold ⟨hstart, hmeets⟩
  | ok bounds =>
    rw [hfold, ok_bind] at hresolve
    exact LockTimeBounds.resolve_error hresolve
      ((LockTimeBounds.foldlM_add_admits hfold).mpr ⟨hstart, hmeets⟩)

theorem resolveLocktime_isLeast (hresolve : resolveLocktime constraints = .ok locktime) :
    (LockTime.zero.MeetsAll constraints → locktime = .zero) ∧
      (¬LockTime.zero.MeetsAll constraints → ∀ other : LockTime,
        other.MeetsAll constraints → locktime.toConsensusU32 ≤ other.toConsensusU32) := by
  simp only [resolveLocktime, bind_eq_ok] at hresolve
  obtain ⟨bounds, hfold, hresolve⟩ := hresolve
  have hminimum : ∀ minimum ∈ bounds.minimum, minimum ≠ .zero :=
    foldlM_invariant (fun bounds : LockTimeBounds => ∀ minimum ∈ bounds.minimum, minimum ≠ .zero)
      (fun _ _ _ hbefore hadd => LockTimeBounds.add_minimum_ne_zero hadd hbefore)
      constraints (by simp) hfold
  have hadmits : ∀ other : LockTime,
      bounds.Admits other ↔ other.MeetsAll constraints := fun other =>
    (LockTimeBounds.foldlM_add_admits hfold).trans
      (and_iff_right (LockTimeBounds.admits_start other))
  refine ⟨fun hzero => ?_, fun hzero other hother => ?_⟩
  · exact (LockTimeBounds.resolve_least hminimum hresolve ((hadmits _).mpr hzero)).1 rfl
  · exact (LockTimeBounds.resolve_least hminimum hresolve
      ((hadmits _).mpr hother)).2 fun h => hzero ((hadmits _).mp h)

theorem exists_resolveLocktime_iff : (∃ locktime, resolveLocktime constraints = .ok locktime) ↔
      ∃ locktime : LockTime, locktime.MeetsAll constraints := by
  constructor
  · rintro ⟨locktime, hresolve⟩
    exact ⟨locktime, resolveLocktime_meets hresolve⟩
  · rintro ⟨locktime, hmeets⟩
    cases hresolve : resolveLocktime constraints with
    | ok resolved => exact ⟨resolved, rfl⟩
    | error => exact absurd hmeets (resolveLocktime_error hresolve)

end

theorem LockTime.toConsensusU32_injective : Function.Injective toConsensusU32 := by
  intro a b heq
  cases a with
  | blocks height hheight =>
    cases b with
    | blocks other hother =>
      have heq : height = other := heq
      subst heq
      rfl
    | seconds other hother =>
      have heq : height = other := heq
      exact absurd (heq ▸ hheight) (not_lt.mpr hother.1)
  | seconds time htime =>
    cases b with
    | blocks other hother =>
      have heq : time = other := heq
      exact absurd (heq ▸ hother) (not_lt.mpr htime.1)
    | seconds other hother =>
      have heq : time = other := heq
      subst heq
      rfl

/-- The chosen locktime depends only on which locktimes meet the constraints. -/
theorem resolveLocktime_congr {constraints reordered : List LockTimeConstraint}
    (hsame : ∀ locktime : LockTime, locktime.MeetsAll reordered ↔ locktime.MeetsAll constraints) :
    (resolveLocktime reordered).toOption = (resolveLocktime constraints).toOption := by
  have hexists : (∃ locktime, resolveLocktime reordered = .ok locktime) ↔
      ∃ locktime, resolveLocktime constraints = .ok locktime := by
    simp only [exists_resolveLocktime_iff, hsame]
  cases hleft : resolveLocktime reordered with
  | error =>
    cases hright : resolveLocktime constraints with
    | error => rfl
    | ok => simp [hleft, hright] at hexists
  | ok left =>
    obtain ⟨right, hright⟩ := hexists.mp ⟨left, hleft⟩
    have hleast := resolveLocktime_isLeast hleft
    have hleast' := resolveLocktime_isLeast hright
    have hleftMeets := resolveLocktime_meets hleft
    have hrightMeets := resolveLocktime_meets hright
    rw [hright]
    refine congrArg some ?_
    by_cases hzero : LockTime.zero.MeetsAll constraints
    · rw [hleast.1 ((hsame _).mpr hzero), hleast'.1 hzero]
    · refine LockTime.toConsensusU32_injective (le_antisymm ?_ ?_)
      · exact hleast.2 (fun h => hzero ((hsame _).mp h)) right ((hsame _).mpr hrightMeets)
      · exact hleast'.2 hzero left ((hsame _).mp hleftMeets)

/-- A locktime is found exactly when one exists; it is the least one, zero
before all others, whatever the order of the contributions. -/
theorem resolveLocktime_least_solution (constraints : List LockTimeConstraint) :
    ((∃ locktime, resolveLocktime constraints = .ok locktime) ↔
        ∃ locktime : LockTime, locktime.MeetsAll constraints) ∧
      (∀ locktime, resolveLocktime constraints = .ok locktime → locktime.MeetsAll constraints ∧
          (LockTime.zero.MeetsAll constraints → locktime = .zero) ∧
          (¬LockTime.zero.MeetsAll constraints → ∀ other : LockTime, other.MeetsAll constraints →
              ¬other.toConsensusU32 < locktime.toConsensusU32)) ∧
      ∀ reordered : List LockTimeConstraint, reordered.Perm constraints →
        (resolveLocktime reordered).toOption = (resolveLocktime constraints).toOption := by
  refine ⟨exists_resolveLocktime_iff, ?_, ?_⟩
  · intro locktime hresolve
    obtain ⟨hzero, hleast⟩ := resolveLocktime_isLeast hresolve
    exact ⟨resolveLocktime_meets hresolve, hzero, fun hnonzero other hother =>
      not_lt.mpr (hleast hnonzero other hother)⟩
  · intro reordered hperm
    refine resolveLocktime_congr fun locktime => ?_
    simp only [LockTime.MeetsAll, hperm.mem_iff]

end DeadcatNode
