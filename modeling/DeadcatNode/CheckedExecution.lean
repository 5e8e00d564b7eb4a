import Mathlib.Tactic
import Mathlib.Logic.Relation

/-!
# Checked arithmetic and fallible executions

This module is independent of any particular program.  It collects the
inversion rules for computations in `Except`, arithmetic on machine words
which reports overflow instead of wrapping, and the induction rule for a
fallible step iterated along a list of inputs.
-/

namespace Checked

variable {ε α β σ ι : Type} {step : σ → ι → Except ε σ}

/-! ## Inversion of successful computations -/

def okOr (value : Option α) (error : ε) : Except ε α :=
  match value with
  | some a => .ok a
  | none => .error error

def require (condition : Prop) [Decidable condition] (error : ε) : Except ε Unit :=
  if condition then .ok () else .error error

def isOkAnd (result : Except ε α) (test : α → Bool) : Bool :=
  match result with
  | .ok a => test a
  | .error _ => false

theorem isOkAnd_iff {result : Except ε α} {test : α → Bool} :
    isOkAnd result test = true ↔ ∃ a, result = .ok a ∧ test a = true := by
  cases result <;> simp [isOkAnd]

@[simp] theorem bind_eq_ok {x : Except ε α} {f : α → Except ε β} {b : β} :
    (x >>= f) = .ok b ↔ ∃ a, x = .ok a ∧ f a = .ok b := by
  cases x <;> simp [bind, Except.bind]

@[simp] theorem ok_bind (a : α) (f : α → Except ε β) : (Except.ok a >>= f) = f a := rfl

@[simp] theorem pure_eq_ok {a b : α} : (pure a : Except ε α) = .ok b ↔ a = b := by
  simp [pure, Except.pure]

@[simp] theorem map_eq_ok {x : Except ε α} {f : α → β} {b : β} :
    (f <$> x) = .ok b ↔ ∃ a, x = .ok a ∧ f a = b := by
  cases x <;> simp [Functor.map, Except.map]

@[simp] theorem mapError_eq_ok {ε' : Type} {x : Except ε α} {f : ε → ε'} {a : α} :
    x.mapError f = .ok a ↔ x = .ok a := by
  cases x <;> simp [Except.mapError]

@[simp] theorem okOr_eq_ok {value : Option α} {error : ε} {a : α} :
    okOr value error = .ok a ↔ value = some a := by
  cases value <;> simp [okOr]

@[simp] theorem require_eq_ok {condition : Prop} [Decidable condition] {error : ε} {u : Unit} :
    require condition error = .ok u ↔ condition := by
  unfold require
  split <;> simp_all

theorem mapM_eq_ok {f : α → Except ε β} {items : List α} {results : List β} :
    items.mapM f = .ok results ↔ List.Forall₂ (fun a b => f a = .ok b) items results := by
  induction items generalizing results with
  | nil => rw [List.mapM_nil, pure_eq_ok, List.forall₂_nil_left_iff, eq_comm]
  | cons a items ih =>
    simp only [List.mapM_cons, bind_eq_ok, pure_eq_ok, ih, List.forall₂_cons_left_iff]
    constructor
    · rintro ⟨b, hb, rest, hrest, rfl⟩
      exact ⟨b, rest, hb, hrest, rfl⟩
    · rintro ⟨b, rest, hb, hrest, rfl⟩
      exact ⟨b, hb, rest, hrest, rfl⟩

theorem mem_of_mapM_eq_ok {f : α → Except ε β} {items : List α}
    {results : List β} (hmap : items.mapM f = .ok results) {b : β} :
    b ∈ results ↔ ∃ a ∈ items, f a = .ok b := by
  have hpairs := mapM_eq_ok.mp hmap
  clear hmap
  induction hpairs with
  | nil => simp
  | @cons a b' items results hhead _ ih =>
    constructor
    · intro hmem
      rcases List.mem_cons.mp hmem with rfl | hmem
      · exact ⟨a, List.mem_cons_self, hhead⟩
      · obtain ⟨a', ha', hb⟩ := ih.mp hmem
        exact ⟨a', List.mem_cons_of_mem _ ha', hb⟩
    · rintro ⟨a', ha', hb⟩
      rcases List.mem_cons.mp ha' with rfl | ha'
      · rw [Except.ok.inj (hb.symm.trans hhead)]
        exact List.mem_cons_self
      · exact List.mem_cons_of_mem _ (ih.mpr ⟨a', ha', hb⟩)

theorem forM_eq_ok {check : α → Except ε Unit} {items : List α} {u : Unit} :
    items.forM check = .ok u ↔ ∀ a ∈ items, check a = .ok () := by
  induction items with
  | nil => simp
  | cons a rest ih =>
    have hcons : (a :: rest).forM check = check a >>= fun _ => rest.forM check := rfl
    rw [hcons, bind_eq_ok, List.forall_mem_cons, ← ih]
    constructor
    · rintro ⟨⟨⟩, hhead, hrest⟩
      exact ⟨hhead, hrest⟩
    · rintro ⟨hhead, hrest⟩
      exact ⟨(), hhead, hrest⟩

/-! ## Failures which cannot occur -/

/-- The computation does not fail with an error of the given kind. -/
def Avoids (bad : ε → Prop) (x : Except ε α) : Prop :=
  ∀ error, x = .error error → ¬ bad error

section

variable {bad : ε → Prop}

theorem avoids_ok (a : α) : Avoids bad (.ok a : Except ε α) := by
  intro error herror
  cases herror

theorem avoids_error {error : ε} (hgood : ¬ bad error) :
    Avoids bad (.error error : Except ε α) := by
  intro error' herror
  cases herror
  exact hgood

theorem avoids_okOr {value : Option α} {error : ε} (hgood : ¬ bad error) :
    Avoids bad (okOr value error) := by
  cases value with
  | none => exact avoids_error hgood
  | some a => exact avoids_ok a

theorem avoids_require {condition : Prop} [Decidable condition] {error : ε}
    (hgood : ¬ condition → ¬ bad error) : Avoids bad (require condition error) := by
  unfold require
  split
  · exact avoids_ok ()
  · next hfails => exact avoids_error (hgood hfails)

theorem Avoids.bind {x : Except ε α} {f : α → Except ε β}
    (hx : Avoids bad x) (hf : ∀ a, x = .ok a → Avoids bad (f a)) : Avoids bad (x >>= f) := by
  cases x with
  | error error => exact avoids_error (hx error rfl)
  | ok a => exact hf a rfl

theorem avoids_check {condition : Prop} [Decidable condition] {error : ε}
    {rest : Unit → Except ε α} (hgood : ¬ bad error) (hrest : Avoids bad (rest ())) :
    Avoids bad (require condition error >>= rest) :=
  (avoids_require fun _ => hgood).bind fun _ _ => hrest

theorem avoids_foldlM
    (hstep : ∀ s i, Avoids bad (step s i)) (items : List ι) (s : σ) :
    Avoids bad (items.foldlM step s) := by
  induction items generalizing s with
  | nil => exact avoids_ok s
  | cons i items ih =>
    rw [List.foldlM_cons]
    exact (hstep s i).bind fun s' _ => ih s'

theorem avoids_forM {check : α → Except ε Unit} {items : List α}
    (hcheck : ∀ a ∈ items, Avoids bad (check a)) : Avoids bad (items.forM check) := by
  induction items with
  | nil => exact avoids_ok ()
  | cons a items ih =>
    have hitems : ∀ a ∈ items, Avoids bad (check a) := fun b hb =>
      hcheck b (List.mem_cons_of_mem a hb)
    exact (hcheck a List.mem_cons_self).bind fun _ _ => ih hitems

theorem avoids_mapM {f : α → Except ε β} (hf : ∀ a, Avoids bad (f a))
    (items : List α) : Avoids bad (items.mapM f) := by
  induction items with
  | nil => exact avoids_ok []
  | cons a items ih =>
    rw [List.mapM_cons]
    exact (hf a).bind fun b _ => ih.bind fun bs _ => avoids_ok (b :: bs)

end

/-! ## Words with overflow checks -/

def checkedAdd (w a b : ℕ) : Option ℕ :=
  if a + b < 2 ^ w then some (a + b) else none

def checkedMul (w a b : ℕ) : Option ℕ :=
  if a * b < 2 ^ w then some (a * b) else none

def checkedSub (a b : ℕ) : Option ℕ :=
  if b ≤ a then some (a - b) else none

@[simp] theorem checkedAdd_eq_some {w a b c : ℕ} :
    checkedAdd w a b = some c ↔ a + b = c ∧ c < 2 ^ w := by
  unfold checkedAdd
  split <;> simp only [Option.some.injEq, reduceCtorEq, false_iff, not_and]
  · constructor
    · rintro rfl
      exact ⟨rfl, by assumption⟩
    · exact fun h => h.1
  · rintro rfl
    assumption

@[simp] theorem checkedMul_eq_some {w a b c : ℕ} :
    checkedMul w a b = some c ↔ a * b = c ∧ c < 2 ^ w := by
  unfold checkedMul
  split <;> simp only [Option.some.injEq, reduceCtorEq, false_iff, not_and]
  · constructor
    · rintro rfl
      exact ⟨rfl, by assumption⟩
    · exact fun h => h.1
  · rintro rfl
    assumption

@[simp] theorem checkedSub_eq_some {a b c : ℕ} : checkedSub a b = some c ↔ b ≤ a ∧ a = b + c := by
  unfold checkedSub
  split <;> simp only [Option.some.injEq, reduceCtorEq, false_iff, not_and] <;> omega

/-! ## Runs of a fallible step -/

/-- An invariant which every successful step on one of the inputs preserves
holds at the end of a successful run. -/
theorem foldlM_mem_invariant (Inv : σ → Prop) {inputs : List ι}
    (hstep : ∀ s i s', i ∈ inputs → Inv s → step s i = .ok s' → Inv s')
    {s s' : σ} (hs : Inv s) (hrun : inputs.foldlM step s = .ok s') : Inv s' := by
  induction inputs generalizing s with
  | nil =>
    simp only [List.foldlM_nil, pure_eq_ok] at hrun
    exact hrun ▸ hs
  | cons input rest ih =>
    simp only [List.foldlM_cons, bind_eq_ok] at hrun
    obtain ⟨mid, hmid, hrest⟩ := hrun
    have hmidInv := hstep s input mid List.mem_cons_self hs hmid
    exact ih (fun t i t' hi => hstep t i t' (List.mem_cons_of_mem _ hi)) hmidInv hrest

/-- The same for steps which preserve the invariant on any input. -/
theorem foldlM_invariant (Inv : σ → Prop)
    (hstep : ∀ s i s', Inv s → step s i = .ok s' → Inv s') {s s' : σ} (inputs : List ι) (hs : Inv s)
    (hrun : inputs.foldlM step s = .ok s') : Inv s' :=
  foldlM_mem_invariant Inv (fun t i t' _ => hstep t i t') hs hrun

/-- Every step of a successful run succeeds. -/
theorem foldlM_step_of_mem {s s' : σ}
    {inputs : List ι} (hrun : inputs.foldlM step s = .ok s') {i : ι}
    (hi : i ∈ inputs) : ∃ t t', step t i = .ok t' := by
  induction inputs generalizing s with
  | nil => cases hi
  | cons input rest ih =>
    simp only [List.foldlM_cons, bind_eq_ok] at hrun
    obtain ⟨mid, hmid, hrest⟩ := hrun
    rcases List.mem_cons.mp hi with rfl | hi
    · exact ⟨s, mid, hmid⟩
    · exact ih hrest hi

/-- What every successful step appends to a log, a successful run appends in
the order of its inputs. -/
theorem foldlM_appends {γ : Type}
    (log : σ → List γ) (entries : ι → List γ)
    (hstep : ∀ s i s', step s i = .ok s' → log s' = log s ++ entries i)
    {s s' : σ} (inputs : List ι) (hrun : inputs.foldlM step s = .ok s') :
    log s' = log s ++ inputs.flatMap entries := by
  induction inputs generalizing s with
  | nil =>
    simp only [List.foldlM_nil, pure_eq_ok] at hrun
    simp [hrun]
  | cons input rest ih =>
    simp only [List.foldlM_cons, bind_eq_ok] at hrun
    obtain ⟨mid, hmid, hrest⟩ := hrun
    rw [ih hrest, hstep s input mid hmid, List.flatMap_cons, List.append_assoc]

/-- A field which every successful step keeps is kept by a successful run. -/
theorem foldlM_unchanged {γ : Type} (field : σ → γ)
    (hstep : ∀ s i s', step s i = .ok s' → field s' = field s)
    {s s' : σ} (inputs : List ι) (hrun : inputs.foldlM step s = .ok s') : field s' = field s :=
  foldlM_invariant (fun t => field t = field s)
    (fun t i t' ht hok => (hstep t i t' hok).trans ht) inputs rfl hrun

/-- A run whose steps first decode their input decodes all inputs first. -/
theorem foldlM_mapM {κ : Type} {decode : ι → Except ε κ} {step' : σ → κ → Except ε σ}
    (hstep : ∀ s i s', step s i = .ok s' ↔ ∃ k, decode i = .ok k ∧ step' s k = .ok s')
    {inputs : List ι} {s s' : σ} : inputs.foldlM step s = .ok s' ↔
      ∃ decoded, inputs.mapM decode = .ok decoded ∧ decoded.foldlM step' s = .ok s' := by
  induction inputs generalizing s with
  | nil => simp [pure_eq_ok]
  | cons input rest ih =>
    simp only [List.foldlM_cons, List.mapM_cons, bind_eq_ok, pure_eq_ok, hstep, ih]
    constructor
    · rintro ⟨mid, ⟨k, hk, hmid⟩, decoded, hdecoded, hrest⟩
      exact ⟨k :: decoded, ⟨k, hk, decoded, hdecoded, rfl⟩, by
        rw [List.foldlM_cons, hmid, ok_bind, hrest]⟩
    · rintro ⟨_, ⟨k, hk, decoded, hdecoded, rfl⟩, hrun⟩
      rw [List.foldlM_cons, bind_eq_ok] at hrun
      obtain ⟨mid, hmid, hrest⟩ := hrun
      exact ⟨mid, ⟨k, hk, hmid⟩, decoded, hdecoded, hrest⟩

/-- A map of states which carries every successful step over carries a
successful run over. -/
theorem foldlM_commute {τ ε' : Type}
    {step' : τ → ι → Except ε' τ} (change : σ → τ)
    (hstep : ∀ s i s', step s i = .ok s' → step' (change s) i = .ok (change s'))
    {s s' : σ} (inputs : List ι) (hrun : inputs.foldlM step s = .ok s') :
    inputs.foldlM step' (change s) = .ok (change s') := by
  induction inputs generalizing s with
  | nil =>
    simp only [List.foldlM_nil, pure_eq_ok] at hrun ⊢
    rw [hrun]
  | cons input rest ih =>
    simp only [List.foldlM_cons, bind_eq_ok] at hrun ⊢
    obtain ⟨mid, hmid, hrest⟩ := hrun
    exact ⟨change mid, hstep s input mid hmid, ih hrest⟩

/-- A run is simulated when each of its steps is, from the states the steps
before it lead to. -/
theorem foldlM_simulates {ρ : Type} {R : ρ → ρ → Prop}
    (view : σ → ρ) (Inv : σ → Prop) {inputs : List ι}
    (hstep : ∀ s i s', i ∈ inputs → Inv s → step s i = .ok s' →
      Inv s' ∧ Relation.ReflTransGen R (view s) (view s'))
    {s s' : σ} (hs : Inv s) (hrun : inputs.foldlM step s = .ok s') :
    Inv s' ∧ Relation.ReflTransGen R (view s) (view s') :=
  foldlM_mem_invariant (fun t => Inv t ∧ Relation.ReflTransGen R (view s) (view t))
    (fun t i t' hi ht hok =>
      ⟨(hstep t i t' hi ht.1 hok).1, ht.2.trans (hstep t i t' hi ht.1 hok).2⟩)
    ⟨hs, .refl⟩ hrun

end Checked
