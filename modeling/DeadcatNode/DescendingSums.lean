import Mathlib.Tactic
import Mathlib.Data.List.Perm.Subperm

/-!
# Sums of parts of a descending list

Among the parts of a descending list of a given length, the front has the
largest sum and the back the smallest.
-/

namespace List

theorem sum_take_tail_le {front : ℕ} {l : List ℕ} (hfront : ∀ entry ∈ l, entry ≤ front) (n : ℕ) :
    (l.take n).sum ≤ ((front :: l).take n).sum := by
  cases n with
  | zero => simp
  | succ n =>
    rw [take_succ_cons, sum_cons, take_add_one, sum_append]
    cases hentry : l[n]? with
    | none => simp
    | some entry =>
      have hle := hfront entry (mem_of_getElem? hentry)
      simp only [Option.toList_some, sum_singleton]
      omega

theorem Sublist.sum_le_sum_take {part l : List ℕ} (hpart : part.Sublist l)
    (hdescending : l.Pairwise (· ≥ ·)) : part.sum ≤ (l.take part.length).sum := by
  induction hpart with
  | slnil => simp
  | cons front hpart ih =>
    obtain ⟨hfront, hrest⟩ := pairwise_cons.mp hdescending
    exact (ih hrest).trans (sum_take_tail_le hfront _)
  | cons_cons front hpart ih =>
    obtain ⟨-, hrest⟩ := pairwise_cons.mp hdescending
    have hsum := ih hrest
    rw [length_cons, take_succ_cons, sum_cons, sum_cons]
    omega

theorem Sublist.sum_drop_le_sum {part l : List ℕ} (hpart : part.Sublist l)
    (hdescending : l.Pairwise (· ≥ ·)) : (l.drop (l.length - part.length)).sum ≤ part.sum := by
  induction hpart with
  | slnil => simp
  | @cons part l front hpart ih =>
    obtain ⟨-, hrest⟩ := pairwise_cons.mp hdescending
    have hlength := hpart.length_le
    have hshift : (front :: l).length - part.length = (l.length - part.length) + 1 := by
      rw [length_cons]
      omega
    rw [hshift, drop_succ_cons]
    exact ih hrest
  | @cons_cons part l front hpart ih =>
    obtain ⟨hfront, hrest⟩ := pairwise_cons.mp hdescending
    have hlength := hpart.length_le
    have hsum := ih hrest
    rw [length_cons, length_cons, sum_cons, Nat.add_sub_add_right]
    -- Either the part is the whole list, or the back begins after the front.
    cases hback : l.length - part.length with
    | zero =>
      rw [hback] at hsum
      rw [drop_zero, sum_cons]
      rw [drop_zero] at hsum
      omega
    | succ n =>
      have hinside : n < l.length := by omega
      rw [hback] at hsum
      rw [drop_succ_cons, drop_eq_getElem_cons hinside, sum_cons]
      have hle := hfront _ (getElem_mem hinside)
      omega

end List
