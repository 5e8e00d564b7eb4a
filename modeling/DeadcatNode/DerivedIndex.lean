import DeadcatNode.OrderedTable

/-!
# Indexes derived from a table

An index is derived when its rows are exactly the entries the records of a main
table contribute.  The record which contributes a row is found from the row
itself, so an index stays derived when one record is replaced and only the
entries of that record change.  Where a record lists its rows, it may also be
stored and removed together with them.
-/

namespace Table

variable {I R K V : Type} [LinearOrder I] [LinearOrder K]

def Keyed (rows : Table I R) (id : R → I) : Prop :=
  ∀ i r, rows[i]? = some r → id r = i

theorem Keyed.insert {rows : Table I R} {id : R → I} (hkeyed : Keyed rows id)
    (r : R) : Keyed (rows.insert (id r) r) id := by
  intro i other hrow
  rw [row_insert] at hrow
  by_cases hi : id r = i
  · rw [if_pos hi] at hrow
    cases hrow
    exact hi
  · rw [if_neg hi] at hrow
    exact hkeyed i other hrow

theorem exists_row_insert {rows : Table I R} {i j : I} {new : R} {P : R → Prop}
    (hkeep : ∀ old, rows[i]? = some old → P old → P new)
    (hrow : ∃ r ∈ rows[j]?, P r) : ∃ r ∈ (rows.insert i new)[j]?, P r := by
  obtain ⟨r, hr, hP⟩ := hrow
  rw [row_insert]
  by_cases hij : i = j
  · rw [if_pos hij]
    rw [← hij] at hr
    exact ⟨new, rfl, hkeep r hr hP⟩
  · rw [if_neg hij]
    exact ⟨r, hr, hP⟩

/-- How the records of a table contribute to an index: the entry of a record
under a key, and the record a row comes from. -/
structure Contribution (I R K V : Type) where
  id : R → I
  entry : R → K → Option V
  source : K → V → I
  source_entry : ∀ r k v, entry r k = some v → source k v = id r

variable {c : Contribution I R K V} {rows : Table I R} {index index' : Table K V}

/-- The index has exactly the contributed rows. -/
def Derived (c : Contribution I R K V) (rows : Table I R) (index : Table K V) : Prop :=
  ∀ k v, index[k]? = some v ↔ ∃ r, rows[c.source k v]? = some r ∧ c.entry r k = some v

theorem Derived.empty : Derived c (∅ : Table I R) (∅ : Table K V) := by
  intro k v
  simp

theorem Derived.row_of_entry (hderived : Derived c rows index)
    (hkeyed : Keyed rows c.id) {i : I} {r : R} {k : K} {v : V}
    (hrow : rows[i]? = some r) (hentry : c.entry r k = some v) : index[k]? = some v := by
  apply (hderived k v).mpr
  have hsource : c.source k v = i := by
    rw [c.source_entry r k v hentry]
    exact hkeyed i r hrow
  rw [hsource]
  exact ⟨r, hrow, hentry⟩

/-- A key which names its record is free as long as there is no such record. -/
theorem Derived.free_of_new [Subsingleton V] (hderived : Derived c rows index)
    {new : R} (hnew : rows[c.id new]? = none) {k : K} {v : V}
    (hentry : c.entry new k = some v) : index[k]? = none := by
  rw [Option.eq_none_iff_forall_ne_some]
  intro w hrow
  obtain ⟨r, hr, -⟩ := (hderived k w).mp hrow
  rw [Subsingleton.elim w v, c.source_entry new k v hentry, hnew] at hr
  cases hr

/-- A new record may be stored when the keys it contributes to are free. -/
theorem Derived.insert (hderived : Derived c rows index) {new : R} (hnew : rows[c.id new]? = none)
    (hfree : ∀ k v, c.entry new k = some v → index[k]? = none)
    (hindex : ∀ k, index'[k]? = (c.entry new k).or index[k]?) :
    Derived c (rows.insert (c.id new) new) index' := by
  intro k v
  rw [hindex k, row_insert]
  by_cases hsource : c.id new = c.source k v
  · -- The row comes from the new record; no row came from it before.
    have hold : index[k]? ≠ some v := by
      intro hrow
      obtain ⟨r, hr, -⟩ := (hderived k v).mp hrow
      rw [← hsource, hnew] at hr
      cases hr
    rw [if_pos hsource]
    cases hentry : c.entry new k with
    | none => simp [hentry, hold]
    | some w => simp [hentry]
  · rw [if_neg hsource, ← hderived k v]
    cases hentry : c.entry new k with
    | none => simp
    | some w =>
      have hw := hfree k w hentry
      have hne : w ≠ v := by
        rintro rfl
        exact hsource (c.source_entry new k w hentry).symm
      simp [hw, hne]

/-- A record may be replaced by one which contributes to no other keys. -/
theorem Derived.replace (hderived : Derived c rows index)
    (hkeyed : Keyed rows c.id) (old new : R) (hid : c.id new = c.id old)
    (hold : rows[c.id old]? = some old) (hkeys : ∀ k, c.entry old k = none → c.entry new k = none)
    (hindex : ∀ k, index'[k]? =
      if c.entry old k = none then index[k]? else c.entry new k) :
    Derived c (rows.insert (c.id old) new) index' := by
  intro k v
  rw [hindex k, row_insert]
  by_cases hsource : c.id old = c.source k v
  · -- The row comes from the replaced record.
    rw [if_pos hsource]
    cases hentry : c.entry old k with
    | none =>
      have habsent : index[k]? ≠ some v := by
        intro hrow
        obtain ⟨r, hr, hv⟩ := (hderived k v).mp hrow
        rw [← hsource, hold] at hr
        cases hr
        rw [hentry] at hv
        cases hv
      simp [habsent, hkeys k hentry]
    | some w => simp
  · rw [if_neg hsource, ← hderived k v]
    cases hentry : c.entry old k with
    | none => simp
    | some w =>
      -- The key belongs to the replaced record, before and after.
      have hrow := hderived.row_of_entry hkeyed hold hentry
      have hwv : index[k]? ≠ some v := by
        rw [hrow]
        intro heq
        rw [← Option.some.inj heq] at hsource
        exact hsource (c.source_entry old k w hentry).symm
      have hnv : c.entry new k ≠ some v := by
        intro hv
        exact hsource (hid ▸ (c.source_entry new k v hv).symm)
      simp [hwv, hnv]

theorem Derived.replace_same (hderived : Derived c rows index)
    (hkeyed : Keyed rows c.id) (old new : R) (hid : c.id new = c.id old)
    (hold : rows[c.id old]? = some old) (hsame : ∀ k, c.entry new k = c.entry old k) :
    Derived c (rows.insert (c.id old) new) index := by
  apply hderived.replace hkeyed old new hid hold
  · intro k hnone
    rw [hsame k, hnone]
  · intro k
    cases hentry : c.entry old k with
    | none => simp
    | some v =>
      rw [if_neg (by simp), hsame k, hentry]
      exact hderived.row_of_entry hkeyed hold hentry

/-! ## Records which list their rows -/

section Listed

variable {entries : I → R → List (K × V)} {i : I} {r : R}

/-- The index has exactly the listed rows. -/
def Listed (entries : I → R → List (K × V)) (rows : Table I R) (index : Table K V) : Prop :=
  ∀ k v, index[k]? = some v ↔ ∃ i r, rows[i]? = some r ∧ (k, v) ∈ entries i r

/-- No other record lists a row under the key of a row of this one. -/
def Apart (entries : I → R → List (K × V)) (rows : Table I R) (i : I) (r : R) : Prop :=
  ∀ j r', rows[j]? = some r' → ∀ e ∈ entries i r, ∀ e' ∈ entries j r', e.1 = e'.1 → i = j

variable (hlisted : Listed entries rows index)
include hlisted

theorem Listed.unique (hlisted' : Listed entries rows index') : index = index' := by
  apply ext_rows
  intro k
  ext v
  exact (hlisted k v).trans (hlisted' k v).symm

theorem Listed.apart_of_free (hfree : ∀ e ∈ entries i r, index[e.1]? = none) :
    Apart entries rows i r := by
  intro j r' hrow e he e' he' hkey
  have hindex := (hlisted e'.1 e'.2).mpr ⟨j, r', hrow, he'⟩
  rw [← hkey, hfree e he] at hindex
  cases hindex

theorem Listed.insert (hnew : rows[i]? = none) (hapart : Apart entries rows i r)
    (hfunctional : ∀ e ∈ entries i r, ∀ e' ∈ entries i r, e.1 = e'.1 → e.2 = e'.2) :
    Listed entries (rows.insert i r) (index.insertAll (entries i r)) := by
  intro k v
  rw [row_insertAll_iff hfunctional, hlisted k v]
  constructor
  · rintro (hentry | ⟨-, j, r', hrow, hentry⟩)
    · exact ⟨i, r, by simp, hentry⟩
    · have hij : i ≠ j := by
        rintro rfl
        rw [hnew] at hrow
        cases hrow
      exact ⟨j, r', by rwa [row_insert, if_neg hij], hentry⟩
  · rintro ⟨j, r', hrow, hentry⟩
    rw [row_insert] at hrow
    split at hrow
    · next hij =>
      cases hrow
      exact .inl (hij ▸ hentry)
    · next hij =>
      refine .inr ⟨?_, j, r', hrow, hentry⟩
      intro hkey
      obtain ⟨e, he, hk⟩ := List.mem_map.mp hkey
      exact hij (hapart j r' hrow e he _ hentry hk)

theorem Listed.erase (hrow : rows[i]? = some r) (hapart : Apart entries rows i r) :
    Listed entries (rows.erase i) (index.eraseAll ((entries i r).map Prod.fst)) := by
  intro k v
  simp only [row_eraseAll, row_erase]
  constructor
  · intro hindex
    split at hindex
    · cases hindex
    · next hfree =>
      obtain ⟨j, r', hrow', hentry⟩ := (hlisted k v).mp hindex
      have hij : i ≠ j := by
        rintro rfl
        cases hrow.symm.trans hrow'
        exact hfree (List.mem_map_of_mem hentry)
      exact ⟨j, r', by rwa [if_neg hij], hentry⟩
  · rintro ⟨j, r', hrow', hentry⟩
    split at hrow'
    · cases hrow'
    · next hij =>
      rw [if_neg, hlisted k v]
      · exact ⟨j, r', hrow', hentry⟩
      · intro hkey
        obtain ⟨e, he, hk⟩ := List.mem_map.mp hkey
        exact hij (hapart j r' hrow' e he _ hentry hk)

end Listed

end Table
