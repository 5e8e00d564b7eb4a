import Mathlib.Tactic
import Mathlib.Data.Prod.Lex

/-!
# Big-endian keys

A store which compares its keys byte by byte orders numbers as their big-endian
encodings of one width.  Encodings of a fixed width put behind one another are
ordered lexicographically by the numbers they encode.
-/

namespace KeyEncoding

def bigEndian : ℕ → ℕ → List UInt8
  | 0, _ => []
  | width + 1, n => UInt8.ofNat (n / 256 ^ width) :: bigEndian width (n % 256 ^ width)

theorem ofNat_lt_iff {a b : ℕ} (ha : a < 256) (hb : b < 256) :
    UInt8.ofNat a < UInt8.ofNat b ↔ a < b := by
  rw [UInt8.lt_iff_toNat_lt, UInt8.toNat_ofNat_of_lt' ha, UInt8.toNat_ofNat_of_lt' hb]

theorem ofNat_eq_iff {a b : ℕ} (ha : a < 256) (hb : b < 256) :
    UInt8.ofNat a = UInt8.ofNat b ↔ a = b := by
  rw [← UInt8.toNat_inj, UInt8.toNat_ofNat_of_lt' ha, UInt8.toNat_ofNat_of_lt' hb]

theorem bigEndian_append_lt_iff {width m n : ℕ} (hm : m < 256 ^ width)
    (hn : n < 256 ^ width) (s t : List UInt8) :
    bigEndian width m ++ s < bigEndian width n ++ t ↔ m < n ∨ m = n ∧ s < t := by
  induction width generalizing m n with
  | zero =>
    have hzero : m = 0 ∧ n = 0 := by
      rw [pow_zero] at hm hn
      omega
    simp [bigEndian, hzero]
  | succ width ih =>
    have hpos : 0 < 256 ^ width := by positivity
    have hdigit : ∀ {k : ℕ}, k < 256 ^ (width + 1) → k / 256 ^ width < 256 := by
      intro k hk
      rw [Nat.div_lt_iff_lt_mul hpos]
      rwa [pow_succ, mul_comm] at hk
    have hrest : ∀ k : ℕ, k % 256 ^ width < 256 ^ width := fun k => Nat.mod_lt k hpos
    simp only [bigEndian, List.cons_append, List.cons_lt_cons_iff,
      ofNat_lt_iff (hdigit hm) (hdigit hn), ofNat_eq_iff (hdigit hm) (hdigit hn),
      ih (hrest m) (hrest n)]
    -- The leading digit and the remainder determine the number and its order.
    have hsplitM := Nat.div_add_mod m (256 ^ width)
    have hsplitN := Nat.div_add_mod n (256 ^ width)
    have hltM := hrest m
    have hltN := hrest n
    generalize m / 256 ^ width = a at *
    generalize n / 256 ^ width = b at *
    generalize m % 256 ^ width = c at *
    generalize n % 256 ^ width = d at *
    generalize 256 ^ width = base at *
    rcases lt_trichotomy a b with hlt | heq | hgt
    · have hstep : base * (a + 1) ≤ base * b := Nat.mul_le_mul_left base hlt
      rw [mul_add, mul_one] at hstep
      have hless : m < n := by omega
      simp [hlt, hless]
    · subst heq
      have horder : m < n ↔ c < d := by omega
      have hequal : m = n ↔ c = d := by omega
      simp [horder, hequal]
    · have hstep : base * (b + 1) ≤ base * a := Nat.mul_le_mul_left base hgt
      rw [mul_add, mul_one] at hstep
      have hless : n < m := by omega
      have hne : a ≠ b := hgt.ne'
      have hne' : m ≠ n := hless.ne'
      simp [hgt.not_gt, hless.not_gt, hne, hne']

theorem bigEndian_lt_iff {width m n : ℕ} (hm : m < 256 ^ width)
    (hn : n < 256 ^ width) : bigEndian width m < bigEndian width n ↔ m < n := by
  simpa using bigEndian_append_lt_iff hm hn [] []

/-! ## Reading numbers back -/

def value (bytes : List UInt8) : ℕ :=
  bytes.foldl (fun value byte => 256 * value + byte.toNat) 0

theorem value_append (front back : List UInt8) :
    value (front ++ back) = 256 ^ back.length * value front + value back := by
  induction back using List.reverseRecOn with
  | nil => simp [value]
  | append_singleton back byte ih =>
    have hlast : ∀ bytes : List UInt8, value (bytes ++ [byte]) =
        256 * value bytes + byte.toNat := fun bytes => by
      simp [value]
    rw [← List.append_assoc, hlast, ih, hlast, List.length_append, List.length_singleton, pow_succ]
    ring

theorem value_cons (byte : UInt8) (bytes : List UInt8) :
    value (byte :: bytes) = 256 ^ bytes.length * byte.toNat + value bytes := by
  simpa [value] using value_append [byte] bytes

theorem value_lt (bytes : List UInt8) : value bytes < 256 ^ bytes.length := by
  induction bytes with
  | nil => simp [value]
  | cons byte bytes ih =>
    have hbyte : byte.toNat + 1 ≤ 256 := byte.toNat_lt
    have hhead := Nat.mul_le_mul_left (256 ^ bytes.length) hbyte
    rw [value_cons, List.length_cons, pow_succ]
    rw [mul_add, mul_one] at hhead
    omega

theorem length_bigEndian (width n : ℕ) : (bigEndian width n).length = width := by
  induction width generalizing n with
  | zero => rfl
  | succ width ih => simp [bigEndian, ih]

theorem value_bigEndian {width n : ℕ} (hn : n < 256 ^ width) : value (bigEndian width n) = n := by
  induction width generalizing n with
  | zero =>
    rw [pow_zero] at hn
    simp [bigEndian, value, Nat.lt_one_iff.mp hn]
  | succ width ih =>
    have hpos : 0 < 256 ^ width := by positivity
    have hdigit : n / 256 ^ width < 256 := by
      rw [Nat.div_lt_iff_lt_mul hpos]
      rwa [pow_succ, mul_comm] at hn
    rw [bigEndian, value_cons, length_bigEndian, ih (Nat.mod_lt n hpos),
      UInt8.toNat_ofNat_of_lt' hdigit, Nat.div_add_mod]

theorem bigEndian_value (bytes : List UInt8) : bigEndian bytes.length (value bytes) = bytes := by
  induction bytes with
  | nil => rfl
  | cons byte bytes ih =>
    have hpos : 0 < 256 ^ bytes.length := by positivity
    have hlt := value_lt bytes
    rw [value_cons, List.length_cons, bigEndian, Nat.mul_add_div hpos,
      Nat.div_eq_of_lt hlt, Nat.mul_add_mod, Nat.mod_eq_of_lt hlt, ih]
    simp

end KeyEncoding
