/-
Exclusive custody.

Several parties `τ` each hold a list of items, an item being a key together
with the stage it is in.  When no key is held twice, every key has at most one
custodian and the holdings determine a partial map from keys to stages:

* `Exclusive H` — no key occurs twice, within a party or across parties;
* `custodyOf H` — the stage each held key is in;
* `exchange` — the rule for one party trading the items `A` for the items `B`
  and keeping the rest;
* `keep`, `replace`, `remove`, `add` — its instances, as updates of the
  custody map.

* `transfer` — one item passes from one party to another.

Design notes: the lists matter only up to permutation, since a party may
reorder what it holds.
-/
import Mathlib.Data.List.Nodup
import Mathlib.Data.List.Perm.Basic
import Mathlib.Logic.Function.Basic

namespace Custody

variable {τ κ σ : Type}

/-- The keys of a list of items. -/
def keys (l : List (κ × σ)) : List κ := l.map Prod.fst

@[simp] theorem keys_nil : keys ([] : List (κ × σ)) = [] := rfl

@[simp] theorem keys_cons (x : κ × σ) (l : List (κ × σ)) : keys (x :: l) = x.1 :: keys l := rfl

@[simp] theorem keys_append (l l' : List (κ × σ)) : keys (l ++ l') = keys l ++ keys l' := by
  simp [keys]

theorem mem_keys {k : κ} {l : List (κ × σ)} : k ∈ keys l ↔ ∃ a, (k, a) ∈ l := by
  simp [keys]

theorem mem_keys_of_mem {k : κ} {a : σ} {l : List (κ × σ)} (h : (k, a) ∈ l) : k ∈ keys l :=
  mem_keys.mpr ⟨a, h⟩

/-- A key that occurs once is in one stage. -/
theorem stage_unique {l : List (κ × σ)} (hn : (keys l).Nodup) {k : κ} {a b : σ}
    (ha : (k, a) ∈ l) (hb : (k, b) ∈ l) : a = b := by
  have h := List.inj_on_of_nodup_map hn ha hb rfl
  exact (Prod.mk.inj h).2

/-- No key is held twice. -/
structure Exclusive (H : τ → List (κ × σ)) : Prop where
  nodup : ∀ t, (keys (H t)).Nodup
  unique : ∀ {t t' k}, k ∈ keys (H t) → k ∈ keys (H t') → t = t'

open Classical in
/-- The stage of a held key. -/
noncomputable def custodyOf (H : τ → List (κ × σ)) (k : κ) : Option σ :=
  if h : ∃ a t, (k, a) ∈ H t then some h.choose else none

variable {H : τ → List (κ × σ)}

theorem exists_of_custodyOf {k : κ} {a : σ} (h : custodyOf H k = some a) :
    ∃ t, (k, a) ∈ H t := by
  unfold custodyOf at h
  split at h
  · next hex =>
    rw [Option.some_inj] at h
    exact h ▸ hex.choose_spec
  · simp at h

theorem custodyOf_eq_some (hx : Exclusive H) {k : κ} {a : σ} :
    custodyOf H k = some a ↔ ∃ t, (k, a) ∈ H t := by
  constructor
  · exact exists_of_custodyOf
  · rintro ⟨t, ht⟩
    have hex : ∃ a t, (k, a) ∈ H t := ⟨a, t, ht⟩
    obtain ⟨t', ht'⟩ := hex.choose_spec
    obtain rfl := hx.unique (mem_keys_of_mem ht) (mem_keys_of_mem ht')
    rw [custodyOf, dif_pos hex, stage_unique (hx.nodup t) ht' ht]

theorem custodyOf_eq_none {k : κ} : custodyOf H k = none ↔ ∀ t, k ∉ keys (H t) := by
  unfold custodyOf
  split
  · next hex =>
    obtain ⟨a, t, ht⟩ := hex
    simp only [reduceCtorEq, false_iff, not_forall, not_not]
    exact ⟨t, mem_keys_of_mem ht⟩
  · next hex =>
    simp only [true_iff]
    intro t hk
    obtain ⟨a, ha⟩ := mem_keys.mp hk
    exact hex ⟨a, t, ha⟩

theorem custodyOf_mem (hx : Exclusive H) {t : τ} {k : κ} {a : σ} (h : (k, a) ∈ H t) :
    custodyOf H k = some a := (custodyOf_eq_some hx).mpr ⟨t, h⟩

/-- Nobody holds anything. -/
theorem exclusive_nil (h : ∀ t, H t = []) : Exclusive H where
  nodup t := by simp [h t]
  unique hk := by simp [h] at hk

theorem custodyOf_nil (h : ∀ t, H t = []) (k : κ) : custodyOf H k = none :=
  custodyOf_eq_none.mpr fun t => by simp [h t]

/-! ### Trading items -/

section Exchange

variable [DecidableEq τ] {t : τ} {L A B R : List (κ × σ)}

/-- **The exchange rule.**  A party that gives the items `A` away for the items
`B`, whose keys it gave away or nobody held, keeps custody exclusive. -/
theorem exchange (hx : Exclusive H) (hA : (H t).Perm (A ++ R)) (hB : L.Perm (B ++ R))
    (hn : (keys B).Nodup) (hfree : ∀ k ∈ keys B, k ∈ keys A ∨ custodyOf H k = none) :
    Exclusive (Function.update H t L) ∧
      ∀ k a, custodyOf (Function.update H t L) k = some a ↔
        (k, a) ∈ B ∨ k ∉ keys A ∧ custodyOf H k = some a := by
  have hkA : (keys (H t)).Perm (keys A ++ keys R) := by
    rw [← keys_append]
    exact hA.map Prod.fst
  have hkL : (keys L).Perm (keys B ++ keys R) := by
    rw [← keys_append]
    exact hB.map Prod.fst
  have hnAR : (keys A ++ keys R).Nodup := hkA.nodup_iff.mp (hx.nodup t)
  -- a key of `B` is not among the items kept
  have hBR : ∀ k ∈ keys B, k ∉ keys R := by
    intro k hk hR
    rcases hfree k hk with hA' | hnone
    · exact (List.nodup_append.mp hnAR).2.2 k hA' k hR rfl
    · exact custodyOf_eq_none.mp hnone t (hkA.mem_iff.mpr (List.mem_append_right _ hR))
  -- nor is it held by another party
  have hBo : ∀ k ∈ keys B, ∀ t', t' ≠ t → k ∉ keys (H t') := by
    intro k hk t' hne hk'
    rcases hfree k hk with hA' | hnone
    · exact hne (hx.unique hk' (hkA.mem_iff.mpr (List.mem_append_left _ hA')))
    · exact custodyOf_eq_none.mp hnone t' hk'
  have hLk : ∀ k, k ∈ keys L ↔ k ∈ keys B ∨ k ∈ keys R := by
    intro k
    rw [hkL.mem_iff, List.mem_append]
  have hx' : Exclusive (Function.update H t L) := by
    refine ⟨fun t' => ?_, ?_⟩
    · by_cases ht : t' = t
      · subst ht
        rw [Function.update_self]
        refine hkL.nodup_iff.mpr (List.nodup_append.mpr
          ⟨hn, (List.nodup_append.mp hnAR).2.1, ?_⟩)
        rintro k hk k' hk' rfl
        exact hBR k hk hk'
      · rw [Function.update_of_ne ht]
        exact hx.nodup t'
    · -- two holders of one key, by whether either is the trading party
      have hcross : ∀ t' k, t' ≠ t → k ∈ keys L → k ∉ keys (H t') := by
        intro t' k hne hk hk'
        rcases (hLk k).mp hk with hkB | hkR
        · exact hBo k hkB t' hne hk'
        · exact hne (hx.unique hk' (hkA.mem_iff.mpr (List.mem_append_right _ hkR)))
      intro t₁ t₂ k h₁ h₂
      by_cases e₁ : t₁ = t <;> by_cases e₂ : t₂ = t
      · rw [e₁, e₂]
      · subst e₁
        rw [Function.update_self] at h₁
        rw [Function.update_of_ne e₂] at h₂
        exact absurd h₂ (hcross t₂ k e₂ h₁)
      · subst e₂
        rw [Function.update_self] at h₂
        rw [Function.update_of_ne e₁] at h₁
        exact absurd h₁ (hcross t₁ k e₁ h₂)
      · rw [Function.update_of_ne e₁] at h₁
        rw [Function.update_of_ne e₂] at h₂
        exact hx.unique h₁ h₂
  refine ⟨hx', fun k a => ?_⟩
  rw [custodyOf_eq_some hx', custodyOf_eq_some hx]
  constructor
  · rintro ⟨t', h⟩
    by_cases ht : t' = t
    · subst ht
      rw [Function.update_self, hB.mem_iff, List.mem_append] at h
      rcases h with h | h
      · exact Or.inl h
      · refine Or.inr ⟨fun hA' => ?_, t', hA.mem_iff.mpr (List.mem_append_right _ h)⟩
        exact (List.nodup_append.mp hnAR).2.2 k hA' k (mem_keys_of_mem h) rfl
    · rw [Function.update_of_ne ht] at h
      refine Or.inr ⟨fun hA' => ht ?_, t', h⟩
      exact hx.unique (mem_keys_of_mem h) (hkA.mem_iff.mpr (List.mem_append_left _ hA'))
  -- back: what came in is held by the trading party, the rest where it was
  · rintro (h | ⟨hkA', t', h⟩)
    · refine ⟨t, ?_⟩
      rw [Function.update_self, hB.mem_iff]
      exact List.mem_append_left _ h
    · refine ⟨t', ?_⟩
      by_cases ht : t' = t
      · subst ht
        rw [Function.update_self, hB.mem_iff]
        rw [hA.mem_iff, List.mem_append] at h
        rcases h with h | h
        · exact absurd (mem_keys_of_mem h) hkA'
        · exact List.mem_append_right _ h
      · rwa [Function.update_of_ne ht]

theorem keep (hx : Exclusive H) (hL : L.Perm (H t)) :
    Exclusive (Function.update H t L) ∧ custodyOf (Function.update H t L) = custodyOf H := by
  obtain ⟨hx', hc⟩ := exchange (A := []) (B := []) (R := H t) hx (.refl _) hL .nil (by simp)
  refine ⟨hx', funext fun k => Option.ext fun a => ?_⟩
  simpa using hc k a

variable [DecidableEq κ] {k : κ} {a b : σ}

theorem replace (hx : Exclusive H) (hA : (H t).Perm ((k, a) :: R)) (hB : L.Perm ((k, b) :: R)) :
    Exclusive (Function.update H t L) ∧
      custodyOf (Function.update H t L) = Function.update (custodyOf H) k (some b) := by
  obtain ⟨hx', hc⟩ := exchange (A := [(k, a)]) (B := [(k, b)]) hx hA hB (by simp) (by simp)
  refine ⟨hx', funext fun k' => Option.ext fun c => ?_⟩
  rw [hc]
  by_cases h : k' = k
  · subst h
    simp [eq_comm]
  · simp [h]

theorem remove (hx : Exclusive H) (hA : (H t).Perm ((k, a) :: R)) (hB : L.Perm R) :
    Exclusive (Function.update H t L) ∧
      custodyOf (Function.update H t L) = Function.update (custodyOf H) k none := by
  obtain ⟨hx', hc⟩ := exchange (A := [(k, a)]) (B := []) hx hA hB .nil (by simp)
  refine ⟨hx', funext fun k' => Option.ext fun c => ?_⟩
  rw [hc]
  by_cases h : k' = k
  · subst h
    simp
  · simp [h]

theorem add (hx : Exclusive H) (hfree : custodyOf H k = none) (hB : L.Perm ((k, b) :: H t)) :
    Exclusive (Function.update H t L) ∧
      custodyOf (Function.update H t L) = Function.update (custodyOf H) k (some b) := by
  obtain ⟨hx', hc⟩ := exchange (A := []) (B := [(k, b)]) (R := H t) hx (.refl _) hB (by simp)
    (by simpa using hfree)
  refine ⟨hx', funext fun k' => Option.ext fun c => ?_⟩
  rw [hc]
  by_cases h : k' = k
  · subst h
    simp [hfree, eq_comm]
  · simp [h]

/-- **A transfer** of one item from party `t` to party `u`. -/
theorem transfer {u : τ} {M : List (κ × σ)} (hx : Exclusive H) (hne : u ≠ t)
    (hA : (H t).Perm ((k, a) :: R)) (hL : L.Perm R) (hM : M.Perm ((k, b) :: H u)) :
    Exclusive (Function.update (Function.update H u M) t L) ∧
      custodyOf (Function.update (Function.update H u M) t L) =
        Function.update (custodyOf H) k (some b) := by
  obtain ⟨hx₁, hc₁⟩ := remove hx hA hL
  have hfree : custodyOf (Function.update H t L) k = none := by
    rw [hc₁, Function.update_self]
  have hM' : M.Perm ((k, b) :: Function.update H t L u) := by
    rwa [Function.update_of_ne hne]
  obtain ⟨hx₂, hc₂⟩ := add hx₁ hfree hM'
  rw [Function.update_comm hne.symm] at hx₂ hc₂
  refine ⟨hx₂, ?_⟩
  rw [hc₂, hc₁, Function.update_idem]

end Exchange

end Custody
