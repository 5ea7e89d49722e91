/-
Finite maps with decidable keys.

A thin layer over Mathlib's association lists, for maps whose value type does
not depend on the key:

* `FinMap κ α` — finite maps from `κ` to `α`;
* `lookup_insert_ite`, `lookup_erase_ite`, `lookup_filter` — what each update
  does to a lookup, at the updated key and at every other;
* `mem_values` — the listed values are exactly the ones some key holds;
* `sorted` — the entries in the order of their keys;
* `patch` — a list of updates, each of another key, and `lookup_patch_of_mem`, what they leave;
* `tally` — what the values amount to together, and what each update does to it.

Design notes: the lookup lemmas are stated with `if`, not with a `≠`
hypothesis, so that one rewrite covers both the touched key and the frame.
-/
import Mathlib.Algebra.BigOperators.Group.List.Basic
import Mathlib.Algebra.Order.BigOperators.Group.List
import Mathlib.Algebra.Order.Group.Nat
import Mathlib.Data.List.AList
import Mathlib.Data.List.Sort
import Mathlib.Data.Option.Basic
import Mathlib.Logic.Function.Basic

/-- Finite maps from `κ` to `α`. -/
abbrev FinMap (κ α : Type) := AList fun _ : κ => α

namespace FinMap

variable {κ α : Type} [DecidableEq κ]

theorem lookup_insert_ite (m : FinMap κ α) (k k' : κ) (v : α) :
    (m.insert k v).lookup k' = if k' = k then some v else m.lookup k' := by
  by_cases h : k' = k
  · subst h
    simp
  · rw [if_neg h, AList.lookup_insert_ne h]

theorem lookup_erase_ite (m : FinMap κ α) (k k' : κ) :
    (m.erase k).lookup k' = if k' = k then none else m.lookup k' := by
  by_cases h : k' = k
  · subst h
    simp
  · rw [if_neg h, AList.lookup_erase_ne h]

/-- Insertion, as an update of the lookup function. -/
theorem lookup_insert_update (m : FinMap κ α) (k : κ) (v : α) :
    (fun k' => (m.insert k v).lookup k') =
      Function.update (fun k' => m.lookup k') k (some v) := by
  funext k'
  rw [lookup_insert_ite, Function.update_apply]

/-- Erasure, as an update of the lookup function. -/
theorem lookup_erase_update (m : FinMap κ α) (k : κ) :
    (fun k' => (m.erase k).lookup k') = Function.update (fun k' => m.lookup k') k none := by
  funext k'
  rw [lookup_erase_ite, Function.update_apply]

@[simp] theorem lookup_empty' (k : κ) : (∅ : FinMap κ α).lookup k = none := rfl

/-! ### Listing and filtering -/

/-- The values of a map, in no order that a client may rely on. -/
def values (m : FinMap κ α) : List α := m.entries.map Sigma.snd

theorem mem_values {m : FinMap κ α} {v : α} :
    v ∈ m.values ↔ ∃ k, m.lookup k = some v := by
  simp only [values, List.mem_map, Sigma.exists]
  constructor
  · rintro ⟨k, w, hmem, rfl⟩
    exact ⟨k, AList.mem_lookup_iff.mpr hmem⟩
  · rintro ⟨k, hk⟩
    exact ⟨k, v, AList.mem_lookup_iff.mp hk, rfl⟩

/-- Values that carry their key are listed once each. -/
theorem nodup_map_values {m : FinMap κ α} {f : α → κ}
    (hf : ∀ k v, m.lookup k = some v → f v = k) : (m.values.map f).Nodup := by
  have hkeys : m.values.map f = m.keys := by
    rw [values, List.map_map, AList.keys, List.keys]
    exact List.map_congr_left fun e he => hf e.1 e.2 (AList.mem_lookup_iff.mpr he)
  rw [hkeys]
  exact m.keys_nodup

/-- The entries whose value satisfies `p`. -/
def filter (m : FinMap κ α) (p : α → Bool) : FinMap κ α :=
  ⟨m.entries.filter (fun e => p e.2), m.nodupKeys.sublist List.filter_sublist⟩

theorem lookup_filter (m : FinMap κ α) (p : α → Bool) (k : κ) :
    (m.filter p).lookup k = (m.lookup k).filter p := by
  apply Option.ext
  intro v
  rw [← Option.mem_def, AList.mem_lookup_iff]
  simp only [filter, List.mem_filter, Option.filter_eq_some_iff]
  constructor
  · rintro ⟨h, hp⟩
    exact ⟨AList.mem_lookup_iff.mpr h, hp⟩
  · rintro ⟨h, hp⟩
    exact ⟨AList.mem_lookup_iff.mp h, hp⟩

/-! ### Iteration -/

section

variable [LE κ] [DecidableLE κ]

/-- The entries in the order of their keys. -/
def sorted (m : FinMap κ α) : List (κ × α) :=
  (m.entries.map fun e => (e.1, e.2)).insertionSort fun a b => a.1 ≤ b.1

theorem mem_sorted {m : FinMap κ α} {k : κ} {v : α} : (k, v) ∈ m.sorted ↔ m.lookup k = some v := by
  rw [sorted, List.mem_insertionSort, List.mem_map]
  constructor
  · rintro ⟨e, he, heq⟩
    obtain ⟨rfl, rfl⟩ := Prod.mk.inj heq
    exact AList.mem_lookup_iff.mpr he
  · intro h
    exact ⟨⟨k, v⟩, AList.mem_lookup_iff.mp h, rfl⟩

omit [DecidableEq κ] in
theorem nodup_keys_sorted (m : FinMap κ α) : (m.sorted.map Prod.fst).Nodup := by
  have hperm : (m.sorted.map Prod.fst).Perm m.keys := by
    refine ((List.perm_insertionSort _ _).map _).trans ?_
    rw [List.map_map]
    exact List.Perm.refl _
  exact hperm.nodup_iff.mpr m.keys_nodup

end

/-! ### Patches -/

/-- An update: the key gets a value, or none. -/
def update (m : FinMap κ α) (k : κ) : Option α → FinMap κ α
  | some v => m.insert k v
  | none => m.erase k

theorem lookup_update (m : FinMap κ α) (k k' : κ) (v : Option α) :
    (m.update k v).lookup k' = if k' = k then v else m.lookup k' := by
  cases v with
  | some v => exact lookup_insert_ite m k k' v
  | none => exact lookup_erase_ite m k k'

/-- A list of updates, one after the other. -/
def patch (m : FinMap κ α) (changes : List (κ × Option α)) : FinMap κ α :=
  changes.foldl (fun m c => m.update c.1 c.2) m

theorem lookup_patch_of_notMem {k : κ} (changes : List (κ × Option α)) :
    ∀ {m : FinMap κ α}, k ∉ changes.map Prod.fst → (m.patch changes).lookup k = m.lookup k := by
  induction changes with
  | nil => exact fun _ => rfl
  | cons c rest ih =>
    intro m hk
    rw [List.map_cons, List.mem_cons, not_or] at hk
    show ((m.update c.1 c.2).patch rest).lookup k = _
    rw [ih hk.2, lookup_update, if_neg hk.1]

/-- **What a patch leaves of a key**, where no key is updated twice. -/
theorem lookup_patch_of_mem {k : κ} {v : Option α} (changes : List (κ × Option α)) :
    ∀ {m : FinMap κ α}, (changes.map Prod.fst).Nodup → (k, v) ∈ changes →
      (m.patch changes).lookup k = v := by
  induction changes with
  | nil => exact fun _ h => absurd h List.not_mem_nil
  | cons c rest ih =>
    intro m hnodup hmem
    obtain ⟨hfirst, hrest⟩ := List.nodup_cons.mp hnodup
    show ((m.update c.1 c.2).patch rest).lookup k = _
    rcases List.mem_cons.mp hmem with rfl | hmem
    · rw [lookup_patch_of_notMem rest hfirst, lookup_update, if_pos rfl]
    · exact ih hrest hmem

/-! ### Tallies -/

section

variable {M : Type} [AddCommMonoid M]

/-- What the entries of a map amount to together. -/
def tally (f : κ → α → M) (m : FinMap κ α) : M := (m.entries.map fun e => f e.1 e.2).sum

/-- What the entry of a key, if any, contributes. -/
def share (f : κ → α → M) (m : FinMap κ α) (k : κ) : M := ((m.lookup k).map (f k)).getD 0

omit [DecidableEq κ] in
@[simp] theorem tally_empty (f : κ → α → M) : tally f (∅ : FinMap κ α) = 0 := rfl

/-- Erasing a key takes its share away. -/
theorem tally_erase (f : κ → α → M) (m : FinMap κ α) (k : κ) :
    tally f (m.erase k) + share f m k = tally f m := by
  obtain ⟨entries, hnodup⟩ := m
  show ((entries.kerase k).map fun e => f e.1 e.2).sum + ((entries.dlookup k).map (f k)).getD 0 =
    (entries.map fun e => f e.1 e.2).sum
  clear hnodup
  induction entries with
  | nil => exact add_zero _
  | cons e rest ih =>
    obtain ⟨k', v⟩ := e
    by_cases h : k = k'
    · subst h
      have hkerase : List.kerase k (⟨k, v⟩ :: rest) = rest := List.kerase_cons_eq rfl
      rw [hkerase, List.dlookup_cons_eq]
      exact add_comm _ _
    · have hkerase : List.kerase k (⟨k', v⟩ :: rest) = ⟨k', v⟩ :: List.kerase k rest :=
        List.kerase_cons_ne h
      rw [hkerase, List.dlookup_cons_ne _ _ h]
      simp only [List.map_cons, List.sum_cons, add_assoc, ih]

/-- Inserting at a key replaces its share. -/
theorem tally_insert (f : κ → α → M) (m : FinMap κ α) (k : κ) (v : α) :
    tally f (m.insert k v) + share f m k = tally f m + f k v := by
  have hinsert : tally f (m.insert k v) = f k v + tally f (m.erase k) := rfl
  rw [hinsert, add_assoc, tally_erase, add_comm]

theorem tally_congr {f g : κ → α → M} {m : FinMap κ α}
    (h : ∀ k v, m.lookup k = some v → f k v = g k v) : tally f m = tally g m := by
  unfold tally
  refine congrArg List.sum (List.map_congr_left ?_)
  intro e he
  exact h e.1 e.2 (AList.mem_lookup_iff.mpr he)

/-- Nothing amounts to anything. -/
theorem tally_eq_zero {f : κ → α → M} {m : FinMap κ α}
    (h : ∀ k v, m.lookup k = some v → f k v = 0) : tally f m = 0 := by
  refine List.sum_eq_zero ?_
  intro x hx
  obtain ⟨e, he, rfl⟩ := List.mem_map.mp hx
  exact h e.1 e.2 (AList.mem_lookup_iff.mpr he)

omit [DecidableEq κ] in
/-- A homomorphism carries a tally over. -/
theorem map_tally {N : Type} [AddCommMonoid N] (g : M →+ N) (f : κ → α → M) (m : FinMap κ α) :
    g (tally f m) = tally (fun k v => g (f k v)) m := by
  unfold tally
  rw [map_list_sum, List.map_map]
  rfl

/-- Tallies compare entry by entry. -/
theorem tally_le {f g : κ → α → ℕ} {m : FinMap κ α}
    (h : ∀ k v, m.lookup k = some v → f k v ≤ g k v) : tally f m ≤ tally g m := by
  refine List.sum_le_sum ?_
  intro e he
  exact h e.1 e.2 (AList.mem_lookup_iff.mpr he)

end

end FinMap
