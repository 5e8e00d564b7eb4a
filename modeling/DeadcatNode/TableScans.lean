import DeadcatNode.OrderedTable

/-!
# Scans of ordered tables

A scan visits the rows of a table in the order of their keys.  It is determined
by the rows, and a row behind all others comes last.
-/

namespace Table

variable {K V : Type} [LinearOrder K]

def fill (t : Table K V) (keys : List K) (v : V) : Table K V :=
  keys.foldl (fun acc k => acc.insert k v) t

theorem row_fill (t : Table K V) (keys : List K) (v : V) (a : K) :
    (fill t keys v)[a]? = if a ∈ keys then some v else t[a]? := by
  induction keys generalizing t with
  | nil => simp [fill]
  | cons k rest ih =>
    have hstep : fill t (k :: rest) v = fill (t.insert k v) rest v := rfl
    rw [hstep, ih, row_insert]
    by_cases hmem : a ∈ rest
    · simp [hmem]
    · by_cases hk : k = a
      · subst hk
        simp
      · have hne : a ≠ k := fun h => hk h.symm
        simp [hmem, hk, hne]

theorem sorted_toList (t : Table K V) : t.toList.Pairwise fun row next => row.1 < next.1 := by
  apply Std.ExtTreeMap.ordered_keys_toList.imp
  intro row next hlt
  exact compare_lt_iff_lt.mp hlt

theorem toList_eq_of_sorted {t : Table K V} {rows : List (K × V)}
    (hsorted : rows.Pairwise fun row next => row.1 < next.1)
    (hrows : ∀ row, row ∈ rows ↔ t[row.1]? = some row.2) : t.toList = rows := by
  have hnodup : ∀ l : List (K × V), (l.Pairwise fun row next => row.1 < next.1) → l.Nodup := by
    intro l hl
    apply hl.imp
    rintro row next hlt rfl
    exact lt_irrefl _ hlt
  have hperm : t.toList.Perm rows := by
    rw [List.perm_ext_iff_of_nodup (hnodup _ (sorted_toList t)) (hnodup _ hsorted)]
    intro row
    rw [hrows row]
    exact mem_toList_iff
  apply hperm.eq_of_pairwise _ (sorted_toList t) hsorted
  intro row next _ _ hlt hgt
  exact absurd hlt (lt_asymm hgt)

@[simp] theorem toList_empty : (∅ : Table K V).toList = [] := by
  apply toList_eq_of_sorted List.Pairwise.nil
  simp

theorem toList_insert_last {t : Table K V} {k : K} (v : V) (hlast : ∀ a w, t[a]? = some w → a < k) :
    (t.insert k v).toList = t.toList ++ [(k, v)] := by
  apply toList_eq_of_sorted
  · rw [List.pairwise_append]
    refine ⟨sorted_toList t, List.pairwise_singleton _ _, ?_⟩
    rintro ⟨a, w⟩ hrow next hnext
    rw [List.mem_singleton.mp hnext]
    exact hlast a w (mem_toList_iff.mp hrow)
  · rintro ⟨a, w⟩
    rw [List.mem_append, mem_toList_iff, List.mem_singleton, row_insert]
    by_cases ha : k = a
    · subst ha
      have habsent : t[k]? ≠ some w := fun hrow => lt_irrefl _ (hlast k w hrow)
      simp [habsent, eq_comm]
    · have hne : a ≠ k := fun h => ha h.symm
      simp [ha, hne]

/-- A scan which stops at the first row of a later kind has all rows of the
earlier one. -/
theorem takeWhile_eq_filter {α : Type} {p : α → Bool} {l : List α}
    (hl : l.Pairwise fun a b => p b → p a) : l.takeWhile p = l.filter p := by
  induction l with
  | nil => rfl
  | cons a rest ih =>
    obtain ⟨hfirst, hrest⟩ := List.pairwise_cons.mp hl
    cases ha : p a with
    | true => rw [List.takeWhile_cons_of_pos ha, List.filter_cons_of_pos ha, ih hrest]
    | false =>
      have hnone : rest.filter p = [] := by
        rw [List.filter_eq_nil_iff]
        intro b hb hpb
        rw [hfirst b hb hpb] at ha
        cases ha
      simp [ha, hnone]

end Table
