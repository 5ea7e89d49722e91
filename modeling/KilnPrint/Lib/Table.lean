/-
Tables with a primary key and a partial unique index.

* `Schema` — what a table declares: the key of a row, the columns of its unique
  index, and what an upsert keeps of the row it meets;
* `Table`, with `upsert`, `find`, `delete` — the rows, and the statements on them;
* `upsert_eq_some` — **an upsert is refused only for the index**;
* `find_upsert`, `find_delete` — what each statement does to a lookup;
* `rows_perm` — the rows are what the lookups find.

Design notes: an upsert first looks for a row with its key and only then at the index, so
that the update of a row is never refused.  The columns an upsert may change are neither in
the key nor in the index, which is why `merge` has to leave both alone.
-/
import Mathlib.Data.List.Nodup
import Mathlib.Data.List.Pairwise
import Mathlib.Data.List.Perm.Basic
import Mathlib.Data.Option.Basic

/-- What a table of rows `ρ` declares. -/
structure Schema (ρ κ ι : Type) where
  key : ρ → κ
  /-- The columns of the unique index, for the rows it covers. -/
  unique : ρ → Option ι
  /-- The row there, and the row that was to be inserted. -/
  merge : ρ → ρ → ρ
  key_merge : ∀ old row, key (merge old row) = key old
  unique_merge : ∀ old row, unique (merge old row) = unique old

structure Table {ρ κ ι : Type} (S : Schema ρ κ ι) where
  rows : List ρ
  keys : (rows.map S.key).Nodup
  index : (rows.filterMap S.unique).Nodup

namespace Table

variable {ρ κ ι : Type} {S : Schema ρ κ ι} {T T' : Table S} {row r r' : ρ} {k : κ} {i : ι}

def empty : Table S := ⟨[], List.nodup_nil, List.nodup_nil⟩

/-- Two rows with one key are the same row. -/
theorem eq_of_key (hr : r ∈ T.rows) (hr' : r' ∈ T.rows) (h : S.key r = S.key r') : r = r' :=
  List.inj_on_of_nodup_map T.keys hr hr' h

theorem nodup_rows (T : Table S) : T.rows.Nodup := T.keys.of_map S.key

section

variable [DecidableEq κ]

/-- `SELECT … WHERE key = k`. -/
def find (T : Table S) (k : κ) : Option ρ := T.rows.find? fun r => S.key r = k

theorem find_eq_some : T.find k = some r ↔ r ∈ T.rows ∧ S.key r = k := by
  constructor
  · intro h
    exact ⟨List.mem_of_find?_eq_some h, by simpa using List.find?_some h⟩
  · rintro ⟨hr, hk⟩
    cases hf : T.find k with
    | none => exact absurd (List.find?_eq_none.mp hf r hr) (by simpa using hk)
    | some r₀ =>
      have hk₀ : S.key r₀ = k := by simpa using List.find?_some hf
      rw [eq_of_key (List.mem_of_find?_eq_some hf) hr (hk₀.trans hk.symm)]

theorem mem_rows_iff : r ∈ T.rows ↔ T.find (S.key r) = some r := by
  rw [find_eq_some]
  exact ⟨fun h => ⟨h, rfl⟩, And.left⟩

/-- The rows are those that the lookups find. -/
theorem rows_perm {l : List ρ} (hl : l.Nodup) (h : ∀ r, T.find (S.key r) = some r ↔ r ∈ l) :
    T.rows.Perm l :=
  (List.perm_ext_iff_of_nodup T.nodup_rows hl).mpr fun r => mem_rows_iff.trans (h r)

/-- `DELETE … WHERE p`. -/
def delete (T : Table S) (p : ρ → Bool) : Table S where
  rows := T.rows.filter fun r => !p r
  keys := T.keys.sublist (List.filter_sublist.map S.key)
  index := T.index.sublist (List.filter_sublist.filterMap S.unique)

theorem find_delete (T : Table S) (p : ρ → Bool) (k : κ) :
    (T.delete p).find k = (T.find k).filter fun r => !p r := by
  apply Option.ext
  intro r
  rw [find_eq_some, Option.filter_eq_some_iff, find_eq_some, delete, List.mem_filter]
  exact ⟨fun h => ⟨⟨h.1.1, h.2⟩, h.1.2⟩, fun h => ⟨⟨h.1.1, h.2⟩, h.1.2⟩⟩

/-! ### Upserts -/

/-- What an upsert of `row` leaves of the row `r`. -/
def updated (S : Schema ρ κ ι) (row r : ρ) : ρ := if S.key r = S.key row then S.merge r row else r

theorem key_updated : S.key (updated S row r) = S.key r := by
  unfold updated
  split
  · exact S.key_merge r row
  · rfl

theorem unique_updated : S.unique (updated S row r) = S.unique r := by
  unfold updated
  split
  · exact S.unique_merge r row
  · rfl

variable [DecidableEq ι]

/-- `INSERT … ON CONFLICT (key) DO UPDATE SET …`; `none` when the index refuses the row. -/
def upsert (T : Table S) (row : ρ) : Option (Table S) :=
  if S.key row ∈ T.rows.map S.key then
    some
      { rows := T.rows.map (updated S row)
        keys := by
          rw [List.map_map, show S.key ∘ updated S row = S.key from funext fun _ => key_updated]
          exact T.keys
        index := by
          rw [List.filterMap_map,
            show S.unique ∘ updated S row = S.unique from funext fun _ => unique_updated]
          exact T.index }
  else if hnew : S.key row ∉ T.rows.map S.key ∧
      ∀ i ∈ S.unique row, i ∉ T.rows.filterMap S.unique then
    some
      { rows := T.rows ++ [row]
        keys := by
          rw [List.map_append, List.map_singleton]
          exact T.keys.append (List.nodup_singleton _) (List.disjoint_singleton.mpr hnew.1)
        index := by
          rw [List.filterMap_append]
          refine T.index.append ?_ ?_
          · cases hrow : S.unique row with
            | none => simp [hrow]
            | some i => simp [hrow]
          · intro i hi hrow
            refine hnew.2 i ?_ hi
            simpa using hrow }
  else none

/-- **An upsert is refused only when another row has its value in the index.** -/
theorem upsert_eq_some (h : ∀ r ∈ T.rows, ∀ i, S.unique row = some i → S.unique r = some i →
    S.key r = S.key row) : ∃ T', T.upsert row = some T' := by
  by_cases hkey : S.key row ∈ T.rows.map S.key
  · exact ⟨_, if_pos hkey⟩
  · have hnew : S.key row ∉ T.rows.map S.key ∧
        ∀ i ∈ S.unique row, i ∉ T.rows.filterMap S.unique := by
      refine ⟨hkey, fun i hi hmem => hkey ?_⟩
      obtain ⟨r, hr, hri⟩ := List.mem_filterMap.mp hmem
      exact List.mem_map.mpr ⟨r, hr, h r hr i hi hri⟩
    rw [upsert, if_neg hkey, dif_pos hnew]
    exact ⟨_, rfl⟩

/-- The rows after an upsert. -/
theorem mem_upsert (h : T.upsert row = some T') : r ∈ T'.rows ↔
    (r ∈ T.rows ∧ S.key r ≠ S.key row) ∨ (∃ old ∈ T.rows, S.key old = S.key row ∧ r = S.merge old row) ∨
      r = row ∧ T.find (S.key row) = none := by
  unfold upsert at h
  split at h
  · next hkey =>
    obtain rfl := Option.some_inj.mp h
    have hfind : T.find (S.key row) ≠ none := by
      obtain ⟨r₀, hr₀, hk⟩ := List.mem_map.mp hkey
      rw [find_eq_some.mpr ⟨hr₀, hk⟩]
      exact Option.some_ne_none r₀
    rw [List.mem_map]
    constructor
    · rintro ⟨old, hold, rfl⟩
      unfold updated
      split
      · next hk => exact Or.inr (Or.inl ⟨old, hold, hk, rfl⟩)
      · next hk => exact Or.inl ⟨hold, hk⟩
    · rintro (⟨hr, hk⟩ | ⟨old, hold, hk, rfl⟩ | ⟨-, hnone⟩)
      · exact ⟨r, hr, if_neg hk⟩
      · exact ⟨old, hold, if_pos hk⟩
      · exact absurd hnone hfind
  · next hkey =>
    have hne : ∀ r ∈ T.rows, S.key r ≠ S.key row := fun r hr hk =>
      hkey (List.mem_map.mpr ⟨r, hr, hk⟩)
    have hnone : T.find (S.key row) = none := List.find?_eq_none.mpr fun r hr => by simpa using hne r hr
    split at h
    · obtain rfl := Option.some_inj.mp h
      rw [List.mem_append, List.mem_singleton]
      constructor
      · rintro (hr | rfl)
        · exact Or.inl ⟨hr, hne r hr⟩
        · exact Or.inr (Or.inr ⟨rfl, hnone⟩)
      · rintro (⟨hr, -⟩ | ⟨old, hold, hk, -⟩ | ⟨rfl, -⟩)
        · exact Or.inl hr
        · exact absurd hk (hne old hold)
        · exact Or.inr rfl
    · cases h

/-- **What an upsert does to a lookup.** -/
theorem find_upsert (h : T.upsert row = some T') (k : κ) :
    T'.find k =
      if k = S.key row then some ((T.find k).elim row (S.merge · row)) else T.find k := by
  apply Option.ext
  intro r
  rw [find_eq_some, mem_upsert h]
  split
  · next hk =>
    subst hk
    rw [Option.some_inj]
    constructor
    · rintro ⟨⟨-, hne⟩ | ⟨old, hold, hkey, rfl⟩ | ⟨rfl, hnone⟩, hkr⟩
      · exact absurd hkr hne
      · rw [find_eq_some.mpr ⟨hold, hkey⟩]
        rfl
      · rw [hnone]
        rfl
    · rintro rfl
      cases hf : T.find (S.key row) with
      | none => exact ⟨Or.inr (Or.inr ⟨rfl, rfl⟩), rfl⟩
      | some old =>
        obtain ⟨hold, hkey⟩ := find_eq_some.mp hf
        exact ⟨Or.inr (Or.inl ⟨old, hold, hkey, rfl⟩), (S.key_merge old row).trans hkey⟩
  · next hk =>
    rw [find_eq_some]
    constructor
    · rintro ⟨⟨hr, -⟩ | ⟨old, hold, hkey, rfl⟩ | ⟨rfl, -⟩, hkr⟩
      · exact ⟨hr, hkr⟩
      · exact absurd (hkr.symm.trans ((S.key_merge old row).trans hkey)) hk
      · exact absurd hkr.symm hk
    · rintro ⟨hr, hkr⟩
      exact ⟨Or.inl ⟨hr, fun he => hk (hkr.symm.trans he)⟩, hkr⟩

end

end Table
