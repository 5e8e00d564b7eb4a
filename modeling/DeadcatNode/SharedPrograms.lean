import Mathlib.Tactic
import Mathlib.Logic.Relation

/-!
# Programs on a shared state

This module is independent of any particular program.  A program asks its
surroundings for data, reads a state which it shares with others, and commits
operations to it.  Between any two of its actions the others may change the
state.  Such a program is described by a rely-guarantee condition: as long as
the others keep to `rely`, every operation is committed in a state where
`guarantee` allows it, and the result fits the state it is returned in.

Long-running code is written in stages: each stage is a finite program whose
result is the next stage, and a call may be given up at any point.
-/

namespace Shared

/-- What programs may ask for, and the operations on the state they share. -/
structure Interface where
  Query : Type
  Answer : Query → Type
  State : Type
  Operation : Type
  Report : Operation → Type
  Failure : Type
  perform : State → (operation : Operation) → Except Failure (Report operation × State)

inductive Program (I : Interface) (α : Type) where
  | done (result : α)
  | fail (failure : I.Failure)
  | ask (query : I.Query) (next : I.Answer query → Program I α)
  | read (next : I.State → Program I α)
  | commit (operation : I.Operation) (next : I.Report operation → Program I α)

namespace Program

variable {I : Interface} {α β : Type}

def bind : Program I α → (α → Program I β) → Program I β
  | .done result, f => f result
  | .fail failure, _ => .fail failure
  | .ask query next, f => .ask query fun answer => (next answer).bind f
  | .read next, f => .read fun state => (next state).bind f
  | .commit operation next, f =>
    .commit operation fun report => (next report).bind f

instance : Monad (Program I) where
  pure := .done
  bind := bind

def ofExcept : Except I.Failure α → Program I α
  | .ok result => .done result
  | .error failure => .fail failure

/-! ## Rely and guarantee -/

section Ensures

variable (rely : I.State → I.State → Prop) (guarantee : I.State → I.Operation → Prop)

/-- From a state, and while the others keep to `rely`, every operation which
the program commits is allowed, and what it returns fits the state. -/
def Ensures : Program I α → (α → I.State → Prop) → I.State → Prop
  | .done result, post, state => ∀ state', rely state state' → post result state'
  | .fail _, _, _ => True
  | .ask _ next, post, state => ∀ answer, (next answer).Ensures post state
  | .read next, post, state =>
    ∀ state', rely state state' → (next state').Ensures post state'
  | .commit operation next, post, state =>
    ∀ state', rely state state' → guarantee state' operation ∧
      ∀ report state'', I.perform state' operation = .ok (report, state'') →
        (next report).Ensures post state''

variable {rely guarantee} {program : Program I α} {post : α → I.State → Prop}
  {state state' : I.State}

theorem Ensures.later (htrans : ∀ s t u, rely s t → rely t u → rely s u)
    (hensures : program.Ensures rely guarantee post state) (hrely : rely state state') :
    program.Ensures rely guarantee post state' := by
  induction program with
  | done =>
    intro final hfinal
    exact hensures final (htrans _ _ _ hrely hfinal)
  | fail => trivial
  | ask query next ih => exact fun answer => ih answer (hensures answer)
  | read | commit =>
    intro later hlater
    exact hensures later (htrans _ _ _ hrely hlater)

theorem Ensures.mono {post' : α → I.State → Prop}
    (hensures : program.Ensures rely guarantee post state)
    (hpost : ∀ result s, post result s → post' result s) :
    program.Ensures rely guarantee post' state := by
  induction program generalizing state with
  | done => exact fun final hfinal => hpost _ _ (hensures final hfinal)
  | fail => trivial
  | ask query next ih => exact fun answer => ih answer (hensures answer)
  | read next ih => exact fun later hlater => ih later (hensures later hlater)
  | commit operation next ih =>
    intro later hlater
    obtain ⟨hallowed, hnext⟩ := hensures later hlater
    exact ⟨hallowed, fun report final hperform => ih report (hnext report final hperform)⟩

theorem Ensures.bind (hrefl : ∀ s, rely s s) {f : α → Program I β} {post : β → I.State → Prop}
    (hensures : program.Ensures rely guarantee
      (fun result s => (f result).Ensures rely guarantee post s) state) :
    (program >>= f).Ensures rely guarantee post state := by
  induction program generalizing state with
  | done => exact hensures state (hrefl state)
  | fail => trivial
  | ask query next ih => exact fun answer => ih answer (hensures answer)
  | read next ih => exact fun later hlater => ih later (hensures later hlater)
  | commit operation next ih =>
    intro later hlater
    obtain ⟨hallowed, hnext⟩ := hensures later hlater
    exact ⟨hallowed, fun report final hperform => ih report (hnext report final hperform)⟩

theorem ensures_ofExcept {result : Except I.Failure α}
    (hpost : ∀ a, result = .ok a → ∀ s, rely state s → post a s) :
    (ofExcept result : Program I α).Ensures rely guarantee post state := by
  cases result with
  | ok a => exact fun s hs => hpost a rfl s hs
  | error => trivial

end Ensures

end Program

/-! ## Code in stages -/

/-- Code in stages.  A call begins at one of the entries. -/
structure Machine (I : Interface) where
  Stage : Type
  code : Stage → Program I Stage
  Entry : Stage → Prop

namespace Machine

variable {I : Interface} (machine : Machine I) (others : I.State → I.State → Prop)

/-- The shared state and what is left of the running stage. -/
abbrev Configuration : Type := I.State × Program I machine.Stage

inductive Step : machine.Configuration → machine.Configuration → Prop where
  | others {state state' : I.State} {program : Program I machine.Stage}
      (hothers : others state state') : Step (state, program) (state', program)
  | ask {state : I.State} {query : I.Query} {next : I.Answer query → Program I machine.Stage}
      (answer : I.Answer query) : Step (state, .ask query next) (state, next answer)
  | read {state : I.State} {next : I.State → Program I machine.Stage} :
      Step (state, .read next) (state, next state)
  | commit {state state' : I.State} {operation : I.Operation}
      {next : I.Report operation → Program I machine.Stage} {report : I.Report operation}
      (hperform : I.perform state operation = .ok (report, state')) :
      Step (state, .commit operation next) (state', next report)
  | proceed {state : I.State} (stage : machine.Stage) :
      Step (state, .done stage) (state, machine.code stage)
  /-- A new call; the one before it may have failed or been given up. -/
  | start {state : I.State} {program : Program I machine.Stage}
      {stage : machine.Stage} (hentry : machine.Entry stage) :
      Step (state, program) (state, machine.code stage)

inductive Reachable (initial : I.State → Prop) : machine.Configuration → Prop where
  | start {state : I.State} {stage : machine.Stage} (hinitial : initial state)
      (hentry : machine.Entry stage) : Reachable initial (state, machine.code stage)
  | step {configuration next : machine.Configuration} (hreachable : Reachable initial configuration)
      (hstep : machine.Step others configuration next) : Reachable initial next

/-- Let the code run alone, with fixed answers from outside, until its next
action passes the test. -/
def advance (answers : ∀ query, I.Answer query) (halt : Program I machine.Stage → Bool) :
    ℕ → machine.Configuration → machine.Configuration
  | 0, configuration => configuration
  | steps + 1, (state, program) =>
    if halt program then (state, program)
    else
      match program with
      | .done stage => advance answers halt steps (state, machine.code stage)
      | .fail failure => (state, .fail failure)
      | .ask query next =>
        advance answers halt steps (state, next (answers query))
      | .read next => advance answers halt steps (state, next state)
      | .commit operation next =>
        match I.perform state operation with
        | .ok (report, state') =>
          advance answers halt steps (state', next report)
        | .error _ => (state, .commit operation next)

variable {machine others}

/-- The invariant rule.  `Inv` holds of the state at all times, and `At` when
a stage begins. -/
theorem Reachable.ensures {initial : I.State → Prop}
    {guarantee : I.State → I.Operation → Prop} {Inv : I.State → Prop}
    {At : machine.Stage → I.State → Prop} (hinitial : ∀ s, initial s → Inv s)
    (hothers : ∀ s s', Inv s → others s s' → Inv s')
    (hcommit : ∀ s operation report s', Inv s → guarantee s operation →
      I.perform s operation = .ok (report, s') → Inv s')
    (hentry : ∀ stage s, machine.Entry stage → Inv s → At stage s)
    (hstage : ∀ stage s, At stage s → (machine.code stage).Ensures
      (Relation.ReflTransGen others) guarantee At s)
    {configuration : machine.Configuration}
    (hreachable : machine.Reachable others initial configuration) :
    Inv configuration.1 ∧ configuration.2.Ensures
      (Relation.ReflTransGen others) guarantee At configuration.1 := by
  have htrans : ∀ s t u : I.State, Relation.ReflTransGen others s t →
      Relation.ReflTransGen others t u → Relation.ReflTransGen others s u :=
    fun _ _ _ => Relation.ReflTransGen.trans
  induction hreachable with
  | start hinit hstart =>
    exact ⟨hinitial _ hinit, hstage _ _ (hentry _ _ hstart (hinitial _ hinit))⟩
  | step _ hstep ih =>
    obtain ⟨hinv, hensures⟩ := ih
    cases hstep with
    | others hmove =>
      exact ⟨hothers _ _ hinv hmove, Program.Ensures.later htrans hensures (.single hmove)⟩
    | ask answer => exact ⟨hinv, hensures answer⟩
    | read => exact ⟨hinv, hensures _ .refl⟩
    | commit hperform =>
      obtain ⟨hallowed, hnext⟩ := hensures _ .refl
      exact ⟨hcommit _ _ _ _ hinv hallowed hperform, hnext _ _ hperform⟩
    | proceed stage => exact ⟨hinv, hstage _ _ (hensures _ .refl)⟩
    | start hstart => exact ⟨hinv, hstage _ _ (hentry _ _ hstart hinv)⟩

theorem Reachable.advance {initial : I.State → Prop} (answers : ∀ query, I.Answer query)
    (halt : Program I machine.Stage → Bool) (steps : ℕ) {configuration : machine.Configuration}
    (hreachable : machine.Reachable others initial configuration) :
    machine.Reachable others initial (machine.advance answers halt steps configuration) := by
  induction steps generalizing configuration with
  | zero => exact hreachable
  | succ steps ih =>
    obtain ⟨state, program⟩ := configuration
    unfold Machine.advance
    split
    · exact hreachable
    split
    · exact ih (.step hreachable (.proceed _))
    · exact hreachable
    · exact ih (.step hreachable (.ask _))
    · exact ih (.step hreachable .read)
    · split
      · next hperform => exact ih (.step hreachable (.commit hperform))
      · exact hreachable

end Machine

end Shared
