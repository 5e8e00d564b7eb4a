import Mathlib.Tactic

/-!
# Values of sums, products and words

A value carries the type it was built at: an injection into a sum names the other
summand.  Words are nested pairs of bits, so a value of a word type is the word of
exactly one number.
-/

namespace Simplicity

inductive Final where
  | unit
  | sum (left right : Final)
  | product (left right : Final)
deriving DecidableEq

def Final.word : ℕ → Final
  | 0 => .sum .unit .unit
  | n + 1 => .product (word n) (word n)

def Final.asWord : Final → Option ℕ
  | .unit => none
  | .sum left right => if left = .unit ∧ right = .unit then some 0 else none
  | .product left right => if left = right then left.asWord.map (· + 1) else none

inductive Value where
  | unit
  | left (inner : Value) (other : Final)
  | right (other : Final) (inner : Value)
  | product (first second : Value)
deriving DecidableEq

namespace Value

def ty : Value → Final
  | .unit => .unit
  | .left inner other => .sum inner.ty other
  | .right other inner => .sum other inner.ty
  | .product first second => .product first.ty second.ty

def asLeft : Value → Option Value
  | .left inner _ => some inner
  | _ => none

def asRight : Value → Option Value
  | .right _ inner => some inner
  | _ => none

def asProduct : Value → Option (Value × Value)
  | .product first second => some (first, second)
  | _ => none

def bits : Value → List Bool
  | .unit => []
  | .left _ _ => [false]
  | .right _ _ => [true]
  | .product first second => first.bits ++ second.bits

def toWord (value : Value) : Option (ℕ × List Bool) :=
  value.ty.asWord.map fun n => (n, value.bits)

/-- What the injections of a value lead to. -/
def branch : Value → Value
  | .left inner _ => inner.branch
  | .right _ inner => inner.branch
  | value => value

def ofWord : ℕ → ℕ → Value
  | 0, x => if x % 2 = 1 then .right .unit .unit else .left .unit .unit
  | n + 1, x => .product (ofWord n (x / 2 ^ 2 ^ n)) (ofWord n (x % 2 ^ 2 ^ n))

end Value

/-! ## Bits -/

def number (bits : List Bool) : ℕ :=
  bits.foldl (fun acc bit => 2 * acc + bit.toNat) 0

theorem number_append (first second : List Bool) :
    number (first ++ second) = number first * 2 ^ second.length + number second := by
  induction second using List.reverseRecOn with
  | nil => simp [number]
  | append_singleton second bit ih =>
    have hlast : ∀ bits, number (bits ++ [bit]) = 2 * number bits + bit.toNat := by simp [number]
    rw [← List.append_assoc, hlast, hlast, ih, List.length_append, List.length_singleton, pow_succ]
    ring

theorem number_lt (bits : List Bool) : number bits < 2 ^ bits.length := by
  induction bits using List.reverseRecOn with
  | nil => simp [number]
  | append_singleton bits bit ih =>
    have hbit := Bool.toNat_lt bit
    rw [number_append, List.length_append, pow_add]
    simp only [List.length_singleton, pow_one, number, List.foldl_cons, List.foldl_nil] at ih ⊢
    omega

/-! ## Words -/

theorem Final.asWord_eq_some {type : Final} {n : ℕ} : type.asWord = some n ↔ type = .word n := by
  induction type generalizing n with
  | unit | sum => cases n <;> simp [asWord, word]
  | product left right ih _ =>
    cases n with
    | zero => simp [asWord, word]
    | succ n =>
      simp only [asWord, word, product.injEq]
      split
      · next hsame =>
        subst hsame
        simp [ih]
      · next hne =>
        refine iff_of_false (by simp) ?_
        rintro ⟨rfl, rfl⟩
        exact hne rfl

namespace Value

variable {value : Value} {n x : ℕ}

theorem asProduct_eq_some {first second : Value} :
    value.asProduct = some (first, second) ↔ value = .product first second := by
  cases value <;> simp [asProduct]

@[simp] theorem ty_ofWord (n x : ℕ) : (ofWord n x).ty = .word n := by
  induction n generalizing x with
  | zero =>
    unfold ofWord
    split <;> rfl
  | succ n ih => simp [ofWord, ty, Final.word, ih]

theorem eq_ofWord (hty : value.ty = .word n) :
    value = ofWord n (number value.bits) ∧ value.bits.length = 2 ^ n := by
  induction n generalizing value with
  | zero =>
    cases value with
    | left inner other =>
      obtain ⟨hinner, rfl⟩ := Final.sum.inj hty
      cases inner <;> cases hinner
      exact ⟨rfl, rfl⟩
    | right other inner =>
      obtain ⟨rfl, hinner⟩ := Final.sum.inj hty
      cases inner <;> cases hinner
      exact ⟨rfl, rfl⟩
    | _ => cases hty
  | succ n ih =>
    cases value with
    | product first second =>
      obtain ⟨hfirst, hsecond⟩ := Final.product.inj hty
      obtain ⟨hfirst, hlength⟩ := ih hfirst
      obtain ⟨hsecond, hlength'⟩ := ih hsecond
      have hlt := number_lt second.bits
      rw [hlength'] at hlt
      refine ⟨?_, by rw [bits, List.length_append, hlength, hlength', pow_succ, mul_two]⟩
      rw [bits, number_append, hlength', ofWord, mul_comm, Nat.mul_add_div (by positivity),
        Nat.div_eq_of_lt hlt, add_zero, Nat.mul_add_mod, Nat.mod_eq_of_lt hlt, ← hfirst, ← hsecond]
    | _ => cases hty

theorem number_ofWord (hlt : x < 2 ^ 2 ^ n) : number (ofWord n x).bits = x := by
  induction n generalizing x with
  | zero =>
    have hcases : x = 0 ∨ x = 1 := by
      rw [pow_zero, pow_one] at hlt
      omega
    rcases hcases with rfl | rfl <;> rfl
  | succ n ih =>
    have hpos : 0 < 2 ^ 2 ^ n := by positivity
    have hhigh : x / 2 ^ 2 ^ n < 2 ^ 2 ^ n := by
      rw [Nat.div_lt_iff_lt_mul hpos, ← pow_add, ← two_mul, ← pow_succ']
      exact hlt
    rw [ofWord, bits, number_append, ih hhigh, ih (Nat.mod_lt x hpos),
      (eq_ofWord (ty_ofWord n _)).2, mul_comm, Nat.div_add_mod]

theorem toWord_eq_some {bits : List Bool} :
    value.toWord = some (n, bits) ↔ value.ty = .word n ∧ value.bits = bits := by
  simp only [toWord, Option.map_eq_some_iff, Final.asWord_eq_some, Prod.mk.injEq]
  constructor
  · rintro ⟨_, hty, rfl, rfl⟩
    exact ⟨hty, rfl⟩
  · rintro ⟨hty, rfl⟩
    exact ⟨n, hty, rfl, rfl⟩

/-! ## Values of a type -/

theorem ty_eq_unit : value.ty = .unit ↔ value = .unit := by
  cases value <;> simp [ty]

theorem ty_eq_sum {a b : Final} : value.ty = .sum a b ↔
    (∃ inner, inner.ty = a ∧ value = .left inner b) ∨
      ∃ inner, inner.ty = b ∧ value = .right a inner := by
  cases value <;> simp [ty, and_comm, eq_comm]

theorem ty_eq_product {a b : Final} : value.ty = .product a b ↔
    ∃ first second, first.ty = a ∧ second.ty = b ∧ value = .product first second := by
  cases value <;> simp [ty, eq_comm]

theorem ty_eq_word : value.ty = .word n ↔ ∃ x < 2 ^ 2 ^ n, value = ofWord n x := by
  constructor
  · intro hty
    obtain ⟨hword, hlength⟩ := eq_ofWord hty
    exact ⟨_, hlength ▸ number_lt _, hword⟩
  · rintro ⟨x, -, rfl⟩
    exact ty_ofWord n x

end Value

end Simplicity
