import Mathlib.Data.ZMod.Basic
import DeadcatNode.BinaryMarketInterpretation
import DeadcatNode.KeyEncoding

/-!
# Blinding scalars as bytes

The blinding factors of the reissuance tokens are computed byte by byte, with
carries and borrows.  The loops compute in the integers modulo the order of the
curve, so both sides of a token have the same value commitment, and the two
tokens of a market balance.
-/

namespace DeadcatNode

namespace RtBytes

open KeyEncoding

def compare : Bytes → Bytes → Ordering
  | a :: left, b :: right => (Ord.compare a.toNat b.toNat).then (compare left right)
  | [], [] => .eq
  | [], _ => .lt
  | _, [] => .gt

def addSameWidth (left right : Bytes) : ℕ × Bytes :=
  (left.zip right).foldr (fun digits (carry, sum) =>
    let word := digits.1.toNat + digits.2.toNat + carry
    (word / 256, UInt8.ofNat word :: sum)) (0, [])

def subtractDigits (left right : Bytes) : ℤ × Bytes :=
  (left.zip right).foldr (fun digits (borrow, output) =>
    let value : ℤ := digits.1.toNat - digits.2.toNat - borrow
    if value < 0 then (1, UInt8.ofNat (value + 256).toNat :: output)
    else (0, UInt8.ofNat value.toNat :: output)) (0, [])

def subtractSameWidth (left right : Bytes) : Bool × Bytes :=
  ((subtractDigits left right).1 ≠ 0, (subtractDigits left right).2)

def order : Bytes :=
  [0xff, 0xff, 0xff, 0xff, 0xff, 0xff, 0xff, 0xff, 0xff, 0xff, 0xff, 0xff, 0xff, 0xff, 0xff, 0xfe,
    0xba, 0xae, 0xdc, 0xe6, 0xaf, 0x48, 0xa0, 0x3b, 0xbf, 0xd2, 0x5e, 0x8c, 0xd0, 0x36, 0x41, 0x41]

def reduceScalar (value : Bytes) : Bytes :=
  if compare value order ≠ .lt then (subtractSameWidth value order).2 else value

def addModOrder (left right : Bytes) : Bytes :=
  let (carry, digits) := addSameWidth (reduceScalar left) (reduceScalar right)
  let sum := UInt8.ofNat carry :: digits
  (if compare sum (0 :: order) ≠ .lt then (subtractSameWidth sum (0 :: order)).2 else sum).tail

def subtractModOrder (left right : Bytes) : Bytes :=
  let left := reduceScalar left
  let right := reduceScalar right
  if compare left right ≠ .lt then (subtractSameWidth left right).2
  else (subtractSameWidth order (subtractSameWidth right left).2).2

def abf : RtSide → Bytes
  | .a => List.replicate 32 1
  | .b => List.replicate 32 2

def yesCbf : Bytes := List.replicate 32 3

def noCbf : Bytes := subtractModOrder (List.replicate 32 0) yesCbf

def cbf : RtLeg → Bytes
  | .yes => yesCbf
  | .no => noCbf

structure Factors where
  abf : Bytes
  vbf : Bytes
  cbf : Bytes

def factors (leg : RtLeg) (side : RtSide) : Factors where
  abf := abf side
  vbf := subtractModOrder (cbf leg) (abf side)
  cbf := cbf leg

/-! ## Loops -/

section

variable {left right : Bytes}

theorem compare_ne_lt_iff (hlength : left.length = right.length) :
    compare left right ≠ .lt ↔ value right ≤ value left := by
  induction left generalizing right with
  | nil =>
    cases right with
    | nil => simp [compare, value]
    | cons => cases hlength
  | cons a left ih =>
    cases right with
    | nil => cases hlength
    | cons b right =>
      have hrest : left.length = right.length := by simpa using hlength
      have hleft := value_lt left
      have hright := value_lt right
      rw [compare, value_cons, value_cons, hrest]
      rw [hrest] at hleft
      rcases lt_trichotomy a.toNat b.toNat with hlt | heq | hgt
      · have hstep := Nat.mul_le_mul_left (256 ^ right.length) (Nat.succ_le_of_lt hlt)
        rw [Nat.mul_succ] at hstep
        have hcompare := compare_lt_iff_lt.mpr hlt
        simp only [hcompare, Ordering.then, ne_eq, not_true_eq_false, false_iff]
        omega
      · have hcompare := compare_eq_iff_eq.mpr heq
        simp only [hcompare, Ordering.then]
        rw [ih hrest, heq]
        omega
      · have hstep := Nat.mul_le_mul_left (256 ^ right.length) (Nat.succ_le_of_lt hgt)
        rw [Nat.mul_succ] at hstep
        have hcompare := compare_gt_iff_gt.mpr hgt
        simp only [hcompare, Ordering.then, ne_eq, reduceCtorEq, not_false_eq_true, true_iff]
        omega

theorem addSameWidth_spec (hlength : left.length = right.length) :
    (addSameWidth left right).2.length = left.length ∧
      256 ^ left.length * (addSameWidth left right).1 + value (addSameWidth left right).2 =
        value left + value right := by
  induction left generalizing right with
  | nil =>
    cases right with
    | nil => simp [addSameWidth, value]
    | cons => cases hlength
  | cons a left ih =>
    cases right with
    | nil => cases hlength
    | cons b right =>
      have hrest : left.length = right.length := by simpa using hlength
      obtain ⟨hwidth, hvalue⟩ := ih hrest
      have hstep : addSameWidth (a :: left) (b :: right) =
          ((a.toNat + b.toNat + (addSameWidth left right).1) / 256,
            UInt8.ofNat (a.toNat + b.toNat + (addSameWidth left right).1) ::
              (addSameWidth left right).2) := rfl
      rw [hstep]
      refine ⟨by simp [hwidth], ?_⟩
      rw [value_cons, value_cons, value_cons, hwidth, ← hrest, List.length_cons, pow_succ]
      have hbyte : (UInt8.ofNat (a.toNat + b.toNat + (addSameWidth left right).1)).toNat =
          (a.toNat + b.toNat + (addSameWidth left right).1) % 256 := UInt8.toNat_ofNat'
      have hword := Nat.div_add_mod (a.toNat + b.toNat + (addSameWidth left right).1) 256
      have hscaled := congrArg (256 ^ left.length * ·) hword
      simp only [mul_add, ← mul_assoc] at hscaled
      rw [hbyte]
      dsimp only
      omega

theorem subtractDigits_spec (hlength : left.length = right.length) :
    (subtractDigits left right).2.length = left.length ∧
      ((subtractDigits left right).1 = 0 ∨ (subtractDigits left right).1 = 1) ∧
      (value left : ℤ) + 256 ^ left.length * (subtractDigits left right).1 =
        value right + value (subtractDigits left right).2 := by
  induction left generalizing right with
  | nil =>
    cases right with
    | nil => simp [subtractDigits, value]
    | cons => cases hlength
  | cons a left ih =>
    cases right with
    | nil => cases hlength
    | cons b right =>
      have hrest : left.length = right.length := by simpa using hlength
      obtain ⟨hwidth, hborrow, hvalue⟩ := ih hrest
      have ha := a.toNat_lt
      have hb := b.toNat_lt
      have hstep : subtractDigits (a :: left) (b :: right) =
          let value : ℤ := a.toNat - b.toNat - (subtractDigits left right).1
          if value < 0 then
            (1, UInt8.ofNat (value + 256).toNat :: (subtractDigits left right).2)
          else (0, UInt8.ofNat value.toNat :: (subtractDigits left right).2) := rfl
      rw [hstep]
      generalize (subtractDigits left right).1 = borrow at *
      dsimp only
      split
      · have hbyte : (a.toNat - b.toNat - borrow + 256 : ℤ).toNat < 256 := by omega
        refine ⟨by simp [hwidth], .inr rfl, ?_⟩
        rw [value_cons, value_cons, value_cons, hwidth, ← hrest, List.length_cons, pow_succ,
          UInt8.toNat_ofNat_of_lt' hbyte]
        push_cast
        rw [Int.toNat_of_nonneg (by omega)]
        linarith
      · have hbyte : (a.toNat - b.toNat - borrow : ℤ).toNat < 256 := by omega
        refine ⟨by simp [hwidth], .inl rfl, ?_⟩
        rw [value_cons, value_cons, value_cons, hwidth, ← hrest, List.length_cons, pow_succ,
          UInt8.toNat_ofNat_of_lt' hbyte]
        push_cast
        rw [Int.toNat_of_nonneg (by omega)]
        linarith

theorem value_subtractSameWidth (hlength : left.length = right.length)
    (hle : value right ≤ value left) :
    value (subtractSameWidth left right).2 = value left - value right ∧
      (subtractSameWidth left right).2.length = left.length := by
  obtain ⟨hwidth, hborrow, hvalue⟩ := subtractDigits_spec hlength
  refine ⟨?_, hwidth⟩
  have hout := value_lt (subtractDigits left right).2
  rw [hwidth] at hout
  change value (subtractDigits left right).2 = _
  rcases hborrow with hzero | hone
  · rw [hzero] at hvalue
    omega
  · rw [hone, mul_one] at hvalue
    have hout' : (value (subtractDigits left right).2 : ℤ) < 256 ^ left.length := by
      exact_mod_cast hout
    omega

end

/-! ## Scalars -/

theorem value_order : value order = secp256k1Order := by decide +kernel

theorem length_order : order.length = 32 := rfl

theorem pow_lt_order : 256 ^ 32 < 2 * secp256k1Order := by decide +kernel

theorem order_lt_pow : secp256k1Order < 256 ^ 32 := by decide +kernel

theorem value_tail {bytes : Bytes} {width : ℕ} (hwidth : bytes.length = width + 1)
    (hsmall : value bytes < 256 ^ width) : value bytes.tail = value bytes := by
  cases bytes with
  | nil => rfl
  | cons byte bytes =>
    have hlength : bytes.length = width := by simpa using hwidth
    rw [value_cons, hlength] at hsmall ⊢
    have hzero : byte.toNat = 0 := by
      by_contra hne
      have hle := Nat.mul_le_mul_left (256 ^ width) (Nat.one_le_iff_ne_zero.mpr hne)
      omega
    rw [hzero]
    simp

section

variable {left right : Bytes} (hleft : left.length = 32) (hright : right.length = 32)

include hleft in
theorem value_reduceScalar : value (reduceScalar left) = DeadcatNode.reduceScalar (value left) ∧
      (reduceScalar left).length = 32 := by
  have hlength : left.length = order.length := hleft.trans length_order.symm
  have hcompare := compare_ne_lt_iff hlength
  rw [value_order] at hcompare
  unfold reduceScalar DeadcatNode.reduceScalar
  by_cases hle : secp256k1Order ≤ value left
  · rw [if_pos (hcompare.mpr hle), if_neg (not_lt.mpr hle)]
    obtain ⟨hvalue, hwidth⟩ := value_subtractSameWidth hlength (by rwa [value_order])
    rw [hvalue, hwidth, value_order]
    exact ⟨rfl, hleft⟩
  · rw [if_neg fun h => hle (hcompare.mp h), if_pos (not_le.mp hle)]
    exact ⟨rfl, hleft⟩

include hleft in
theorem reduceScalar_eq_mod : value (reduceScalar left) = value left % secp256k1Order ∧
      value (reduceScalar left) < secp256k1Order := by
  have hlt := value_lt left
  rw [hleft] at hlt
  have hpow := pow_lt_order
  rw [(value_reduceScalar hleft).1, DeadcatNode.reduceScalar]
  generalize secp256k1Order = n at hpow ⊢
  split
  · next hsmall => exact ⟨(Nat.mod_eq_of_lt hsmall).symm, hsmall⟩
  · next hlarge =>
    have hsmall : value left - n < n := by omega
    rw [Nat.mod_eq_sub_mod (not_lt.mp hlarge), Nat.mod_eq_of_lt hsmall]
    exact ⟨rfl, hsmall⟩

include hleft hright in
theorem value_addModOrder :
    value (addModOrder left right) = (value left + value right) % secp256k1Order := by
  obtain ⟨hl, hl'⟩ := reduceScalar_eq_mod hleft
  obtain ⟨hr, hr'⟩ := reduceScalar_eq_mod hright
  have hlength := (value_reduceScalar hleft).2.trans (value_reduceScalar hright).2.symm
  obtain ⟨hwidth, hsum⟩ := addSameWidth_spec hlength
  rw [(value_reduceScalar hleft).2] at hwidth hsum
  rw [Nat.add_mod, ← hl, ← hr]
  unfold addModOrder
  generalize reduceScalar left = x at *
  generalize reduceScalar right = y at *
  generalize addSameWidth x y = loop at *
  obtain ⟨carry, digits⟩ := loop
  dsimp only at hwidth hsum ⊢
  have hpow := pow_lt_order
  have hfits := order_lt_pow
  have hcarry : (UInt8.ofNat carry).toNat = carry := by
    refine UInt8.toNat_ofNat_of_lt' ?_
    change carry < 256
    omega
  have hvalue : value (UInt8.ofNat carry :: digits) = value x + value y := by
    rw [value_cons, hwidth, hcarry, hsum]
  have hlength : (UInt8.ofNat carry :: digits).length = (0 :: order).length := by
    rw [List.length_cons, hwidth, List.length_cons, length_order]
  have horder : value (0 :: order) = secp256k1Order := by simp [value_cons, value_order]
  have hcompare := compare_ne_lt_iff hlength
  rw [hvalue, horder] at hcompare
  split
  · next hge =>
    have hle := hcompare.mp hge
    obtain ⟨hdifference, hout⟩ := value_subtractSameWidth hlength (by rwa [hvalue, horder])
    rw [hvalue, horder] at hdifference
    rw [List.length_cons, hwidth] at hout
    have hsmall : value x + value y - secp256k1Order < secp256k1Order := by omega
    rw [value_tail hout (by omega), hdifference, Nat.mod_eq_sub_mod hle, Nat.mod_eq_of_lt hsmall]
  · next hlt =>
    have hsmall : value x + value y < secp256k1Order := not_le.mp fun h => hlt (hcompare.mpr h)
    rw [value_tail (by rw [List.length_cons, hwidth]) (by omega), hvalue, Nat.mod_eq_of_lt hsmall]

include hleft hright in
theorem value_subtractModOrder : value (subtractModOrder left right) =
        DeadcatNode.subtractModOrder (value left) (value right) ∧
      (subtractModOrder left right).length = 32 := by
  obtain ⟨hl, hlength⟩ := value_reduceScalar hleft
  obtain ⟨hr, hlength'⟩ := value_reduceScalar hright
  have hsmall := (reduceScalar_eq_mod hright).2
  have hsame := hlength.trans hlength'.symm
  have hcompare := compare_ne_lt_iff hsame
  unfold subtractModOrder DeadcatNode.subtractModOrder
  rw [← hl, ← hr]
  dsimp only
  by_cases hle : value (reduceScalar right) ≤ value (reduceScalar left)
  · rw [if_pos (hcompare.mpr hle), if_pos hle]
    obtain ⟨hvalue, hwidth⟩ := value_subtractSameWidth hsame hle
    exact ⟨hvalue, hwidth.trans hlength⟩
  · rw [if_neg fun h => hle (hcompare.mp h), if_neg hle]
    obtain ⟨hvalue, hwidth⟩ := value_subtractSameWidth hsame.symm (not_le.mp hle).le
    have horder : order.length = (subtractSameWidth (reduceScalar right)
        (reduceScalar left)).2.length := by
      rw [hwidth, hlength', length_order]
    obtain ⟨hvalue', hwidth'⟩ := value_subtractSameWidth horder (by
      rw [value_order, hvalue]
      omega)
    exact ⟨by rw [hvalue', hvalue, value_order], hwidth'⟩

end

theorem subtractModOrder_eq_emod {a b : ℕ} (ha : a < secp256k1Order) (hb : b < secp256k1Order) :
    (DeadcatNode.subtractModOrder a b : ℤ) = ((a : ℤ) - b) % secp256k1Order := by
  unfold DeadcatNode.subtractModOrder DeadcatNode.reduceScalar
  rw [if_pos ha, if_pos hb]
  generalize secp256k1Order = n at *
  split
  · next hle =>
    rw [Int.emod_eq_of_lt (by omega) (by omega)]
    omega
  · next hlt =>
    rw [← Int.add_emod_right, Int.emod_eq_of_lt (by omega) (by omega)]
    omega

/-! ## Factors of the legs -/

theorem cbf_reduced (leg : RtLeg) : (cbf leg).length = 32 ∧ value (cbf leg) < secp256k1Order := by
  cases leg <;> decide +kernel

theorem abf_reduced (side : RtSide) :
    (abf side).length = 32 ∧ value (abf side) < secp256k1Order := by
  cases side <;> decide +kernel

theorem vbf_reduced (leg : RtLeg) (side : RtSide) : value (factors leg side).vbf < secp256k1Order ∧
      ((value (factors leg side).vbf : ℤ) =
        ((value (cbf leg) : ℤ) - value (abf side)) % secp256k1Order) := by
  obtain ⟨hcbf, hcbf'⟩ := cbf_reduced leg
  obtain ⟨habf, habf'⟩ := abf_reduced side
  have hvalue := subtractModOrder_eq_emod hcbf' habf'
  rw [← (value_subtractModOrder hcbf habf).1] at hvalue
  refine ⟨?_, hvalue⟩
  have hlt := Int.emod_lt_of_pos ((value (cbf leg) : ℤ) - value (abf side))
    (by decide +kernel : (0 : ℤ) < secp256k1Order)
  rw [← hvalue] at hlt
  exact_mod_cast hlt

theorem blinders_add (leg : RtLeg) (side : RtSide) :
    ((value (factors leg side).vbf : ZMod secp256k1Order) + value (factors leg side).abf) =
      value (cbf leg) := by
  have hvalue := congrArg (Int.cast : ℤ → ZMod secp256k1Order) (vbf_reduced leg side).2
  rw [ZMod.intCast_mod] at hvalue
  push_cast at hvalue
  rw [hvalue]
  exact sub_add_cancel _ _

/-- A blinded amount of a transaction. -/
structure Opening where
  amount : ℕ
  abf : ℕ
  vbf : ℕ

def Opening.blinding (opening : Opening) : ZMod secp256k1Order :=
  opening.amount * opening.abf + opening.vbf

/-- Zero when the commitments of a transaction balance. -/
def blindingBalance (inputs outputs : List Opening) : ZMod secp256k1Order :=
  (inputs.map Opening.blinding).sum - (outputs.map Opening.blinding).sum

def rtOpening (leg : RtLeg) (side : RtSide) : Opening :=
  ⟨1, value (factors leg side).abf, value (factors leg side).vbf⟩

theorem blinding_rtOpening (leg : RtLeg) (side : RtSide) :
    (rtOpening leg side).blinding = value (cbf leg) := by
  rw [← blinders_add leg side, Opening.blinding, rtOpening, Nat.cast_one, one_mul, add_comm]

inductive CommitmentError where
  | invalidAssetBlindingFactor
  | invalidValueBlindingFactor

section

open Checked

variable {P : Type} [AddCommGroup P] [Module (ZMod secp256k1Order) P]

/-- Asset and value commitment to one unit, in a group of the order of the curve. -/
def commitments (generator : AssetId → P) (base : P) (assetId : AssetId) (factors : Factors) :
    Except CommitmentError (P × P) := do
  require (value factors.abf < secp256k1Order) .invalidAssetBlindingFactor
  require (value factors.vbf < secp256k1Order) .invalidValueBlindingFactor
  let asset := generator assetId + (value factors.abf : ZMod secp256k1Order) • base
  return (asset, (1 : ZMod secp256k1Order) • asset +
    (value factors.vbf : ZMod secp256k1Order) • base)

theorem commitments_factors (generator : AssetId → P) (base : P) (assetId : AssetId) (leg : RtLeg)
    (side : RtSide) :
    ∃ asset, commitments generator base assetId (factors leg side) = .ok (asset,
      generator assetId + (value (cbf leg) : ZMod secp256k1Order) • base) := by
  refine ⟨generator assetId + (value (abf side) : ZMod secp256k1Order) • base, ?_⟩
  simp only [commitments, bind_eq_ok, require_eq_ok, pure_eq_ok]
  refine ⟨(), (abf_reduced side).2, (), (vbf_reduced leg side).1, ?_⟩
  rw [← blinders_add leg side, add_smul, one_smul, add_assoc, add_comm (_ • base)]
  rfl

end

/-- The scalar code computes modulo the order of the curve, so a flip changes neither a value
commitment nor the balance of a transaction. -/
theorem blinding_scalars_modular : (∀ bytes : Bytes, bytes.length = 32 →
      value (reduceScalar bytes) = value bytes % secp256k1Order) ∧
    (∀ left right : Bytes, left.length = 32 → right.length = 32 →
      value left < secp256k1Order → value right < secp256k1Order →
        value (addModOrder left right) = (value left + value right) % secp256k1Order ∧
        ((value (subtractModOrder left right) : ℤ) =
          ((value left : ℤ) - value right) % secp256k1Order)) ∧
    (∀ leg side, (value (factors leg side).vbf + value (factors leg side).abf) % secp256k1Order =
      value (factors leg side).cbf) ∧
    (value (cbf .yes) + value (cbf .no)) % secp256k1Order = 0 ∧
    (∀ (P : Type) [AddCommGroup P] [Module (ZMod secp256k1Order) P] (generator : AssetId → P)
      (base : P) (assetId : AssetId) (leg : RtLeg) (side : RtSide),
      ∃ asset flipped amount,
        commitments generator base assetId (factors leg side) = .ok (asset, amount) ∧
        commitments generator base assetId (factors leg side.flip) = .ok (flipped, amount)) ∧
    ∀ (inputs before after : List Opening) (leg : RtLeg) (side : RtSide),
      blindingBalance inputs (before ++ rtOpening leg side :: after) =
        blindingBalance inputs (before ++ rtOpening leg side.flip :: after) ∧
      blindingBalance inputs (before ++ rtOpening .yes side :: rtOpening .no side :: after) =
        blindingBalance inputs (before ++ after) := by
  refine ⟨fun bytes hlength => (reduceScalar_eq_mod hlength).1, ?_, ?_, by decide +kernel, ?_, ?_⟩
  · intro left right hleft hright hsmall hsmall'
    refine ⟨value_addModOrder hleft hright, ?_⟩
    rw [(value_subtractModOrder hleft hright).1, subtractModOrder_eq_emod hsmall hsmall']
  · intro leg side
    have hsum := blinders_add leg side
    rw [← Nat.cast_add, ZMod.natCast_eq_natCast_iff, Nat.ModEq,
      Nat.mod_eq_of_lt (cbf_reduced leg).2] at hsum
    exact hsum
  · intro P _ _ generator base assetId leg side
    obtain ⟨asset, hthis⟩ := commitments_factors generator base assetId leg side
    obtain ⟨flipped, hother⟩ := commitments_factors generator base assetId leg side.flip
    exact ⟨asset, flipped, _, hthis, hother⟩
  · intro inputs before after leg side
    have hbalance : (value (cbf .yes) : ZMod secp256k1Order) + value (cbf .no) = 0 := by
      rw [← Nat.cast_add, ZMod.natCast_eq_zero_iff]
      exact Nat.dvd_of_mod_eq_zero (by decide +kernel)
    simp only [blindingBalance, List.map_append, List.map_cons, List.sum_append, List.sum_cons,
      blinding_rtOpening, ← add_assoc, true_and]
    rw [add_assoc (List.sum _), hbalance, add_zero]

end RtBytes

end DeadcatNode
