import Mathlib.Tactic
import Mathlib.Order.Compare
import Mathlib.Data.Prod.Lex

/-!
# Ordered tables

A table of an embedded key-value store is a finite map iterated in key order.
It is Std's extensional ordered tree over a linear order, so two tables with
the same rows are equal.  The lemmas below restate row access with equality
of keys in place of the comparison, and give the inverse and commutation laws
which undo logs rely on.
-/

/-- Rows of type `V` under keys of type `K`. -/
abbrev Table (K V : Type) [LinearOrder K] : Type :=
  Std.ExtTreeMap K V compare

namespace Table

variable {K V : Type} [LinearOrder K]

instance instTransCmp : Std.TransCmp (compare : K → K → Ordering) := inferInstance

instance instLawfulEqCmp : Std.LawfulEqCmp (compare : K → K → Ordering) where
  eq_of_compare := compare_eq_iff_eq.mp

theorem ext_rows {t u : Table K V} (hrows : ∀ k : K, t[k]? = u[k]?) : t = u :=
  Std.ExtTreeMap.ext_getElem? hrows

@[simp] theorem row_empty (k : K) : (∅ : Table K V)[k]? = none :=
  Std.ExtTreeMap.getElem?_empty

@[simp] theorem row_insert (t : Table K V) (k a : K) (v : V) :
    (t.insert k v)[a]? = if k = a then some v else t[a]? := by
  rw [Std.ExtTreeMap.getElem?_insert]
  simp only [compare_eq_iff_eq]

@[simp] theorem row_erase (t : Table K V) (k a : K) :
    (t.erase k)[a]? = if k = a then none else t[a]? := by
  rw [Std.ExtTreeMap.getElem?_erase]
  simp only [compare_eq_iff_eq]

theorem mem_toList_iff {t : Table K V} {k : K} {v : V} : (k, v) ∈ t.toList ↔ t[k]? = some v :=
  Std.ExtTreeMap.mem_toList_iff_getElem?_eq_some

theorem nodup_keys (t : Table K V) : (t.toList.map Prod.fst).Nodup := by
  rw [List.nodup_iff_pairwise_ne, List.pairwise_map]
  apply Std.ExtTreeMap.distinct_keys_toList.imp
  intro a b hdistinct heq
  exact hdistinct (compare_eq_iff_eq.mpr heq)

/-! ## Undoing single writes -/

theorem erase_insert_of_absent {t : Table K V} {k : K} (v : V)
    (habsent : t[k]? = none) : (t.insert k v).erase k = t := by
  apply ext_rows
  intro a
  by_cases ha : k = a
  · subst ha
    simp [habsent]
  · simp [ha]

theorem insert_erase_of_present {t : Table K V} {k : K} {v : V}
    (hpresent : t[k]? = some v) : (t.erase k).insert k v = t := by
  apply ext_rows
  intro a
  by_cases ha : k = a
  · subst ha
    simp [hpresent]
  · simp [ha]

theorem insert_insert_self (t : Table K V) (k : K) (v w : V) :
    (t.insert k v).insert k w = t.insert k w := by
  apply ext_rows
  intro a
  by_cases ha : k = a <;> simp [ha]

theorem insert_of_present {t : Table K V} {k : K} {v : V}
    (hpresent : t[k]? = some v) : t.insert k v = t := by
  apply ext_rows
  intro a
  by_cases ha : k = a
  · subst ha
    simp [hpresent]
  · simp [ha]

theorem erase_insert_self (t : Table K V) (k : K) (v : V) : (t.insert k v).erase k = t.erase k := by
  apply ext_rows
  intro a
  by_cases ha : k = a <;> simp [ha]

theorem insert_erase_self (t : Table K V) (k : K) (v : V) :
    (t.erase k).insert k v = t.insert k v := by
  apply ext_rows
  intro a
  by_cases ha : k = a <;> simp [ha]

theorem insert_comm {k l : K} (hne : k ≠ l) (t : Table K V) (v w : V) :
    (t.insert k v).insert l w = (t.insert l w).insert k v := by
  apply ext_rows
  intro a
  simp only [row_insert]
  by_cases hk : k = a
  · subst hk
    simp [hne.symm]
  · simp [hk]

theorem erase_insert_comm {k l : K} (hne : k ≠ l) (t : Table K V) (v : V) :
    (t.insert k v).erase l = (t.erase l).insert k v := by
  apply ext_rows
  intro a
  simp only [row_insert, row_erase]
  by_cases hk : k = a
  · subst hk
    simp [hne.symm]
  · simp [hk]

/-! ## Bulk removal -/

def eraseAll (t : Table K V) (keys : List K) : Table K V :=
  keys.foldl (fun acc k => acc.erase k) t

@[simp] theorem eraseAll_nil (t : Table K V) : t.eraseAll [] = t := rfl

theorem row_eraseAll (t : Table K V) (keys : List K) (a : K) :
    (eraseAll t keys)[a]? = if a ∈ keys then none else t[a]? := by
  induction keys generalizing t with
  | nil => simp [eraseAll]
  | cons k rest ih =>
    have hstep : eraseAll t (k :: rest) = eraseAll (t.erase k) rest := rfl
    rw [hstep, ih]
    by_cases hmem : a ∈ rest
    · simp [hmem]
    · by_cases hk : k = a
      · subst hk
        simp
      · have hne : a ≠ k := fun h => hk h.symm
        simp [hmem, hk, hne]

theorem eraseAll_insert_journalled {t u : Table K V} {keys : List K} {k : K}
    (v : V) (htable : t.eraseAll keys = u) (habsent : u[k]? = none) :
    eraseAll (t.insert k v) (keys ++ [k]) = u := by
  apply ext_rows
  intro a
  have hrow : (t.eraseAll keys)[a]? = u[a]? := by rw [htable]
  rw [row_eraseAll] at hrow ⊢
  rw [row_insert]
  by_cases hk : k = a
  · subst hk
    simp [habsent]
  · have hne : a ≠ k := fun h => hk h.symm
    simpa [hk, hne] using hrow

def insertAll (t : Table K V) (rows : List (K × V)) : Table K V :=
  rows.foldl (fun acc row => acc.insert row.1 row.2) t

@[simp] theorem insertAll_nil (t : Table K V) : t.insertAll [] = t := rfl

theorem insertAll_cons (t : Table K V) (row : K × V) (rows : List (K × V)) :
    insertAll t (row :: rows) = insertAll (t.insert row.1 row.2) rows := rfl

theorem row_insertAll_iff {rows : List (K × V)}
    (hfunctional : ∀ r ∈ rows, ∀ r' ∈ rows, r.1 = r'.1 → r.2 = r'.2)
    (t : Table K V) (a : K) (v : V) :
    (insertAll t rows)[a]? = some v ↔ (a, v) ∈ rows ∨ a ∉ rows.map Prod.fst ∧ t[a]? = some v := by
  induction rows generalizing t with
  | nil => simp
  | cons row rest ih =>
    have hrest : ∀ r ∈ rest, ∀ r' ∈ rest, r.1 = r'.1 → r.2 = r'.2 :=
      fun r hr r' hr' => hfunctional r (List.mem_cons_of_mem _ hr) r' (List.mem_cons_of_mem _ hr')
    rw [insertAll_cons, ih hrest, row_insert]
    by_cases hkey : row.1 = a
    · have hvalue : ∀ w, (a, w) ∈ rest → w = row.2 := by
        intro w hw
        exact hfunctional (a, w) (List.mem_cons_of_mem _ hw) row List.mem_cons_self hkey.symm
      simp only [hkey, if_true, List.map_cons, List.mem_cons, true_or,
        not_true_eq_false, false_and, or_false, Option.some.injEq]
      constructor
      · rintro (hmem | ⟨-, rfl⟩)
        · exact .inr hmem
        · exact .inl (Prod.ext hkey.symm rfl)
      · rintro (rfl | hmem)
        · by_cases hin : a ∈ rest.map Prod.fst
          · obtain ⟨⟨a', w⟩, hw, rfl⟩ := List.mem_map.mp hin
            have heq := hvalue w hw
            subst heq
            exact .inl hw
          · exact .inr ⟨hin, rfl⟩
        · exact .inl hmem
    · have hne : a ≠ row.1 := fun h => hkey h.symm
      have hpair : (a, v) ≠ row := fun h => hne (congrArg Prod.fst h)
      simp [hkey, hne, hpair]

theorem eraseAll_insertAll_journalled {t u : Table K V} {keys : List K}
    {rows : List (K × V)} (htable : t.eraseAll keys = u)
    (habsent : ∀ row ∈ rows, u[row.1]? = none) :
    eraseAll (t.insertAll rows) (keys ++ rows.map Prod.fst) = u := by
  induction rows generalizing t keys with
  | nil => simpa using htable
  | cons row rest ih =>
    rw [insertAll_cons, List.map_cons, List.append_cons]
    apply ih
    · exact eraseAll_insert_journalled _ htable (habsent row List.mem_cons_self)
    · intro other hother
      exact habsent other (List.mem_cons_of_mem _ hother)

def retainKeys (t : Table K V) (keep : K → Bool) : Table K V :=
  t.filter fun k _ => keep k

theorem row_retainKeys (t : Table K V) (keep : K → Bool) (a : K) :
    (retainKeys t keep)[a]? = if keep a then t[a]? else none := by
  unfold retainKeys
  simp only [Std.ExtTreeMap.getElem?_filter, Std.ExtTreeMap.getKey_eq, Option.pfilter_eq_filter]
  cases t[a]? with
  | none => simp
  | some v => cases hkeep : keep a <;> simp [Option.filter]

end Table
