/-
What the printer-language registry answers, after languages have been registered.

* `PrinterProtocol.keys`, `registerAll` — the spellings a language is registered under, and a
  sequence of registrations;
* `resolve_registerAll`, `mem_ordered_registerAll` — **a spelling belongs to the last language
  registered under it, and the last language of each id is listed**;
* `Coherent` — what is resolved is listed, and what is listed is resolved by its id;
* `Separate` — a language that is replaced leaves no spelling behind, and no later language takes
  the id of one that stays;
* `registry_coherent` — **the registry is coherent if and only if the registrations are separate**.
-/
import Mathlib.Data.List.Induction
import KilnPrint.Protocol

namespace KilnPrint

/-- The spellings that a language is registered under. -/
def PrinterProtocol.keys (p : PrinterProtocol) : List String :=
  (p.info.id :: p.info.aliases).map normalise

namespace ProtocolRegistry

/-- Registers languages one after the other. -/
def registerAll (protocols : List PrinterProtocol) : ProtocolRegistry := protocols.foldl register {}

theorem registerAll_append (ps : List PrinterProtocol) (q : PrinterProtocol) :
    registerAll (ps ++ [q]) = (registerAll ps).register q := by
  rw [registerAll, List.foldl_append]
  rfl

/-! ### The last registration -/

/-- `x` is the last element of a list that satisfies `P`. -/
def IsLast {α : Type} (P : α → Prop) (xs : List α) (x : α) : Prop :=
  ∃ pre post, xs = pre ++ x :: post ∧ P x ∧ ∀ y ∈ post, ¬ P y

theorem not_isLast_nil {α : Type} {P : α → Prop} {x : α} : ¬ IsLast P [] x := by
  rintro ⟨pre, post, h, -⟩
  exact List.append_ne_nil_of_right_ne_nil pre (List.cons_ne_nil x post) h.symm

theorem isLast_append {α : Type} {P : α → Prop} {xs : List α} {a x : α} :
    IsLast P (xs ++ [a]) x ↔ (P a ∧ x = a) ∨ (¬ P a ∧ IsLast P xs x) := by
  constructor
  · rintro ⟨pre, post, h, hx, hpost⟩
    induction post using List.reverseRecOn with
    | nil =>
      obtain ⟨-, rfl⟩ := List.append_inj' h rfl |>.imp_right List.singleton_inj.mp
      exact .inl ⟨hx, rfl⟩
    | append_singleton rest b _ =>
      have hsplit : xs ++ [a] = (pre ++ x :: rest) ++ [b] := by
        rw [h, List.append_assoc, List.cons_append]
      obtain ⟨rfl, hb⟩ := List.append_inj' hsplit rfl
      obtain rfl := List.singleton_inj.mp hb
      refine .inr ⟨hpost a (List.mem_append_right _ List.mem_cons_self), pre, rest, rfl, hx, ?_⟩
      exact fun y hy => hpost y (List.mem_append_left _ hy)
  · rintro (⟨ha, rfl⟩ | ⟨ha, pre, post, rfl, hx, hpost⟩)
    · exact ⟨xs, [], rfl, ha, fun _ h => nomatch h⟩
    · refine ⟨pre, post ++ [a], by rw [List.append_assoc, List.cons_append], hx, fun y hy => ?_⟩
      rcases List.mem_append.mp hy with hy | hy
      · exact hpost y hy
      · exact List.mem_singleton.mp hy ▸ ha

theorem exists_isLast {α : Type} {P : α → Prop} {xs : List α} {x : α} (hmem : x ∈ xs) (hx : P x) :
    ∃ y, IsLast P xs y := by
  induction xs using List.reverseRecOn with
  | nil => exact absurd hmem List.not_mem_nil
  | append_singleton xs a ih =>
    by_cases ha : P a
    · exact ⟨a, isLast_append.mpr (.inl ⟨ha, rfl⟩)⟩
    · have hne : x ≠ a := fun h => ha (h ▸ hx)
      have hxs : x ∈ xs :=
        (List.mem_append.mp hmem).resolve_right fun h => hne (List.mem_singleton.mp h)
      obtain ⟨y, hy⟩ := ih hxs
      exact ⟨y, isLast_append.mpr (.inr ⟨ha, hy⟩)⟩

theorem isLast_unique {α : Type} {P : α → Prop} {xs : List α} {x y : α} (hx : IsLast P xs x)
    (hy : IsLast P xs y) : x = y := by
  induction xs using List.reverseRecOn with
  | nil => exact absurd hx not_isLast_nil
  | append_singleton xs a ih =>
    rcases isLast_append.mp hx with ⟨ha, rfl⟩ | ⟨ha, hx⟩
    · rcases isLast_append.mp hy with ⟨-, rfl⟩ | ⟨ha', -⟩
      · rfl
      · exact absurd ha ha'
    · rcases isLast_append.mp hy with ⟨ha', -⟩ | ⟨-, hy⟩
      · exact absurd ha' ha
      · exact ih hx hy

/-! ### The registry -/

theorem lookup_register (r : ProtocolRegistry) (p : PrinterProtocol) (k : String) :
    (r.register p).byKey.lookup k = if k ∈ p.keys then some p else r.byKey.lookup k := by
  have hfold : ∀ (names : List String) (m : FinMap String PrinterProtocol),
      (names.foldl (fun m key => m.insert (normalise key) p) m).lookup k =
        if k ∈ names.map normalise then some p else m.lookup k := by
    intro names
    induction names with
    | nil => exact fun m => rfl
    | cons name names ih =>
      intro m
      rw [List.foldl_cons, ih, FinMap.lookup_insert_ite]
      by_cases hrest : k ∈ names.map normalise
      · have hmem : k ∈ (name :: names).map normalise := List.mem_cons_of_mem _ hrest
        rw [if_pos hrest, if_pos hmem]
      · rw [if_neg hrest]
        refine if_congr ?_ rfl rfl
        rw [List.map_cons, List.mem_cons, or_iff_left hrest]
  exact hfold _ _

theorem mem_ordered_register {r : ProtocolRegistry} {p q : PrinterProtocol} :
    p ∈ (r.register q).ordered ↔ p = q ∨ (p ∈ r.ordered ∧ p.info.id ≠ q.info.id) := by
  show p ∈ _ ++ [q] ↔ _
  rw [List.mem_append, List.mem_singleton, List.mem_filter, bne_iff_ne, or_comm]

/-- **A spelling belongs to the last language that was registered under it.** -/
theorem resolve_registerAll {ps : List PrinterProtocol} {name : String} {p : PrinterProtocol} :
    (registerAll ps).resolve name = some p ↔ IsLast (normalise name ∈ ·.keys) ps p := by
  induction ps using List.reverseRecOn with
  | nil => exact iff_of_false (fun h => nomatch h) not_isLast_nil
  | append_singleton ps q ih =>
    rw [registerAll_append, resolve, lookup_register, isLast_append, ← ih, resolve]
    by_cases hq : normalise name ∈ q.keys
    · rw [if_pos hq]
      constructor
      · exact fun h => .inl ⟨hq, (Option.some.inj h).symm⟩
      · rintro (⟨-, rfl⟩ | ⟨hnot, -⟩)
        · rfl
        · exact absurd hq hnot
    · rw [if_neg hq]
      constructor
      · exact fun h => .inr ⟨hq, h⟩
      · rintro (⟨hyes, -⟩ | ⟨-, h⟩)
        · exact absurd hyes hq
        · exact h

/-- **The last language of each id is listed.** -/
theorem mem_ordered_registerAll {ps : List PrinterProtocol} {p : PrinterProtocol} :
    p ∈ (registerAll ps).ordered ↔ IsLast (·.info.id = p.info.id) ps p := by
  induction ps using List.reverseRecOn with
  | nil => exact iff_of_false List.not_mem_nil not_isLast_nil
  | append_singleton ps q ih =>
    rw [registerAll_append, mem_ordered_register, isLast_append, ← ih]
    constructor
    · rintro (rfl | ⟨hmem, hne⟩)
      · exact .inl ⟨rfl, rfl⟩
      · exact .inr ⟨hne.symm, hmem⟩
    · rintro (⟨-, rfl⟩ | ⟨hne, hmem⟩)
      · exact .inl rfl
      · exact .inr ⟨hmem, Ne.symm hne⟩

/-! ### Coherence -/

/-- Every language that a name resolves to is listed, and every language that is listed is what its
own id resolves to. -/
def Coherent (r : ProtocolRegistry) : Prop :=
  (∀ name p, r.resolve name = some p → p.info ∈ r.languages) ∧
    ∀ p ∈ r.ordered, r.resolve p.info.id = some p

/-- Where a language is replaced by a later one of its id, later ones are registered under all of
its spellings; and where it is not, no later one is registered under its id. -/
def Separate (ps : List PrinterProtocol) : Prop :=
  ∀ pre p post, ps = pre ++ p :: post →
    ((∃ q ∈ post, q.info.id = p.info.id) → ∀ k ∈ p.keys, ∃ q ∈ post, k ∈ q.keys) ∧
    ((∀ q ∈ post, q.info.id ≠ p.info.id) → ∀ q ∈ post, normalise p.info.id ∉ q.keys)

theorem id_mem_keys (p : PrinterProtocol) : normalise p.info.id ∈ p.keys := List.mem_cons_self

/-- The language of an id that is listed is the last one of its id, also of the later ones. -/
theorem isLast_of_suffix {α : Type} {P : α → Prop} {pre post : List α} {x y z : α}
    (h : IsLast P (pre ++ x :: post) y) (hmem : z ∈ post) (hz : P z) : IsLast P post y := by
  obtain ⟨last, before, after, rfl, hlast, hafter⟩ := exists_isLast hmem hz
  have hwhole : IsLast P (pre ++ x :: (before ++ last :: after)) last :=
    ⟨pre ++ x :: before, after, by rw [List.append_assoc, List.cons_append], hlast, hafter⟩
  obtain rfl := isLast_unique h hwhole
  exact ⟨before, after, rfl, hlast, hafter⟩

/-- **Language registry coherence.**  After any registrations, every language that a name resolves
to is listed, and every language that is listed is what its id resolves to, exactly where a
language that was replaced has left no spelling to itself, and no language of another id was
registered under the id of one that was not. -/
theorem registry_coherent (ps : List PrinterProtocol) :
    Coherent (registerAll ps) ↔ Separate ps := by
  constructor
  · rintro ⟨hlisted, hresolved⟩ pre p post rfl
    refine ⟨?_, fun hkept q hq hkey => ?_⟩
    · rintro ⟨q, hq, hid⟩ k hk
      by_contra hnone
      push Not at hnone
      obtain ⟨name, -, rfl⟩ := List.mem_map.mp hk
      have hresolve := resolve_registerAll.mpr ⟨pre, post, rfl, hk, hnone⟩
      obtain ⟨p', hp', hinfo⟩ := List.mem_map.mp (hlisted name p hresolve)
      have hkeys : p'.keys = p.keys := by rw [PrinterProtocol.keys, hinfo]; rfl
      -- the language that is listed for the id comes after `p`, with the spellings of `p`
      have hlast := isLast_of_suffix (mem_ordered_registerAll.mp hp') hq (by rw [hid, hinfo])
      obtain ⟨before, after, rfl, -⟩ := hlast
      exact hnone p' (List.mem_append_right _ List.mem_cons_self) (hkeys ▸ hk)
    · have hmem : p ∈ (registerAll (pre ++ p :: post)).ordered :=
        mem_ordered_registerAll.mpr ⟨pre, post, rfl, rfl, hkept⟩
      have hlast := resolve_registerAll.mp (hresolved p hmem)
      have hlater := isLast_of_suffix hlast hq hkey
      obtain ⟨before, after, rfl, -⟩ := hlater
      exact hkept p (List.mem_append_right _ List.mem_cons_self) rfl
  · intro hseparate
    refine ⟨fun name p hresolve => ?_, fun p hmem => ?_⟩
    · obtain ⟨pre, post, rfl, hkey, hpost⟩ := resolve_registerAll.mp hresolve
      refine List.mem_map_of_mem (mem_ordered_registerAll.mpr ⟨pre, post, rfl, rfl, fun q hq hid => ?_⟩)
      obtain ⟨q', hq', hkey'⟩ := (hseparate pre p post rfl).1 ⟨q, hq, hid⟩ _ hkey
      exact hpost q' hq' hkey'
    · obtain ⟨pre, post, rfl, -, hpost⟩ := mem_ordered_registerAll.mp hmem
      exact resolve_registerAll.mpr
        ⟨pre, post, rfl, id_mem_keys p, (hseparate pre p post rfl).2 hpost⟩

/-- A language with some aliases. -/
def language (id : String) (aliases : List String) : PrinterProtocol :=
  ⟨⟨id, id, .label, aliases⟩, fun _ => []⟩

/-- **A language that was replaced is still resolved by an alias of its own.** -/
theorem replaced_resolved : ¬ Coherent (registerAll [language "ZPL" ["ZEBRA"], language "ZPL" []]) := by
  rintro ⟨hlisted, -⟩
  have hresolve : (registerAll [language "ZPL" ["ZEBRA"], language "ZPL" []]).resolve "zebra" =
      some (language "ZPL" ["ZEBRA"]) := rfl
  exact absurd (hlisted _ _ hresolve) (by decide)

end ProtocolRegistry

end KilnPrint
