/-
Documents fetched by URL.

* `urlAllowed`, `validPrefix` — **the allow-list and the check of its entries**;
* `scheme`, `authority`, `segments` — the parts of a URL;
* `resolve` — a path without its dot segments;
* `Confined` — what the allow-list is for: the scheme, the authority and the path of an allowed
  URL are those of a prefix, and the path goes on from there;
* `Returns` — the dot-dots of a URL leave no directory of the prefix, or it is entered again;
* `url_confined` — **an allowed URL is confined if and only if it returns**.

A percent-encoded dot, in digits of either case, is a dot.  The prefix is compared without
regard to case, and paths are not.
-/
import KilnPrint.Lib.Pieces
import KilnPrint.Model.Document
import Mathlib.Data.List.Forall2
import Mathlib.Data.List.Infix
import Mathlib.Data.List.TakeWhile

namespace KilnPrint

namespace UrlSource

/-! ### The allow-list -/

/-- Anything that could make a prefix match misleading. -/
def misleading (url : List Char) : Bool :=
  url.any (['@', '\\', ' ', '\t', '\r', '\n'].contains ·) ||
    decide ("/../".toList <:+: url) || decide ("%2e%2e".toList <:+: url) ||
    decide ("%2E%2E".toList <:+: url)

/-- `to_ascii_lowercase`. -/
def lower (text : List Char) : List Char := text.map Char.toLower

def urlAllowed (prefixes : List (List Char)) (url : List Char) : Bool :=
  if misleading url then false else prefixes.any fun p => (lower p).isPrefixOf (lower url)

/-- The text before the first `://`, and what follows it. -/
def cutScheme : List Char → Option (List Char × List Char)
  | ':' :: '/' :: '/' :: rest => some ([], rest)
  | c :: rest => (cutScheme rest).map fun (s, r) => (c :: s, r)
  | [] => none

/-- The part after the first `://`, up to the second. -/
def secondPart (url : List Char) : Option (List Char) :=
  (cutScheme url).map fun (_, rest) => (cutScheme rest).elim rest Prod.fst

/-- The check of an entry of the configuration. -/
def validPrefix (p : List Char) : Bool :=
  ("https://".toList.isPrefixOf p || "http://".toList.isPrefixOf p) && p.getLast? == some '/' &&
    (secondPart p).any (fun rest => 1 < (String.ofList rest).utf8ByteSize && rest.head? != some '/') &&
    !p.any (['@', '\\', ' '].contains ·)

/-! ### The parts of a URL -/

def scheme (url : List Char) : List Char := ((cutScheme url).map Prod.fst).getD []

def afterScheme (url : List Char) : List Char := ((cutScheme url).map Prod.snd).getD []

/-- What ends an authority. -/
def inAuthority (c : Char) : Bool := c != '/' && c != '?' && c != '#'

/-- What ends a path. -/
def inPath (c : Char) : Bool := c != '?' && c != '#'

def authority (url : List Char) : List Char := (afterScheme url).takeWhile inAuthority

def path (url : List Char) : List Char := ((afterScheme url).dropWhile inAuthority).takeWhile inPath

/-- The segments of a path: none, or those after each slash. -/
def segments (url : List Char) : List (List Char) :=
  match path url with
  | [] => []
  | _ :: rest => rest.splitOn '/'

/-- A dot, spelt out or percent-encoded. -/
def isDot (segment : List Char) : Bool := [".".toList, "%2e".toList].contains (lower segment)

def isDotDot (segment : List Char) : Bool :=
  ["..".toList, ".%2e".toList, "%2e.".toList, "%2e%2e".toList].contains (lower segment)

/-- The directories after a segment, the last one first. -/
def descend (stack : List (List Char)) (segment : List Char) : List (List Char) :=
  if isDot segment then stack else if isDotDot segment then stack.tail else segment :: stack

/-- What a path ends in: a dot segment at its end leaves a slash. -/
def ending (segments : List (List Char)) : List (List Char) :=
  if segments.getLast?.any fun s => isDot s || isDotDot s then [[]] else []

/-- A path without its dot segments. -/
def resolve (segments : List (List Char)) : List (List Char) :=
  (segments.foldl descend []).reverse ++ ending segments

/-- One path begins with another, and goes on. -/
def Below (directories path : List (List Char)) : Prop :=
  directories <+: path ∧ directories.length < path.length

instance (directories path : List (List Char)) : Decidable (Below directories path) :=
  inferInstanceAs (Decidable (_ ∧ _))

/-- A path is the path of a prefix, or goes on from it where it ends in a slash. -/
def Under (directory path : List (List Char)) : Prop :=
  path = directory ∨ directory.getLast? = some [] ∧ Below directory.dropLast path

/-- The scheme and the authority of a URL are the prefix's, and its path lies under that of the
prefix. -/
structure Confined (p url : List Char) : Prop where
  scheme : lower (scheme url) = lower (scheme p)
  authority : lower (authority url) = lower (authority p)
  path : Under (resolve (segments p)) (resolve (segments url))

/-! ### Climbing -/

/-- The levels that a walk has climbed above its start, and the directories it is in. -/
def climb (walk : ℕ × List (List Char)) (segment : List Char) : ℕ × List (List Char) :=
  if isDot segment then walk
  else if isDotDot segment then
    match walk.2 with
    | [] => (walk.1 + 1, [])
    | _ :: rest => (walk.1, rest)
  else (walk.1, segment :: walk.2)

/-- The directories of the prefix, as the URL spells them, that what follows does not leave are
spelt as in the prefix; and those that it leaves are entered again, spelt as in the prefix.  A
prefix whose path does not end in a slash is followed by no path, and has to be spelt alike. -/
def Returns (p url : List Char) : Prop :=
  let k := (segments p).length - 1
  let stack := ((segments p).take k).foldl descend []
  let spelt := ((segments url).take k).foldl descend []
  let rest := (segments url).drop k
  let walk := rest.foldl climb (0, [])
  if (segments p).getLast? = some [] then
    spelt.drop walk.1 = stack.drop walk.1 ∧
      Below (stack.take walk.1).reverse (walk.2.reverse ++ ending rest)
  else resolve (segments url) = resolve (segments p)

instance (p url : List Char) : Decidable (Returns p url) := by
  unfold Returns
  infer_instance

/-! ### Texts that differ in case -/

/-- Two texts differ at most in the case of their letters. -/
def Alike : List Char → List Char → Prop := List.Forall₂ fun c d => c.toLower = d.toLower

theorem alike_iff {a b : List Char} : Alike a b ↔ lower a = lower b := by
  rw [lower, lower, ← List.forall₂_eq_eq_eq, List.forall₂_map_left_iff, List.forall₂_map_right_iff]
  rfl

theorem alike_refl (a : List Char) : Alike a a := alike_iff.mpr rfl

/-- A character that is no letter is spelt in one way. -/
theorem eq_of_toLower {c d : Char} (hd : d.toNat < 97) (hfixed : d.toLower = d)
    (h : d.toLower = c.toLower) : c = d := by
  rw [hfixed] at h
  by_cases hupper : c.val ≥ 'A'.val ∧ c.val ≤ 'Z'.val
  · have hlow : 65 ≤ c.toNat := hupper.1
    have hhigh : c.toNat ≤ 90 := hupper.2
    have hsum : d.toNat = (c.toNat + 32) % 4294967296 :=
      congrArg Char.toNat (h.trans (dif_pos hupper))
    omega
  · exact (h.trans (dif_neg hupper)).symm

theorem mark_iff {c d m : Char} (hm : m.toNat < 97) (hfixed : m.toLower = m)
    (h : c.toLower = d.toLower) : c = m ↔ d = m := by
  constructor
  · rintro rfl
    exact eq_of_toLower hm hfixed h
  · rintro rfl
    exact eq_of_toLower hm hfixed h.symm

theorem slash_iff {c d : Char} (h : c.toLower = d.toLower) : c = '/' ↔ d = '/' :=
  mark_iff (by decide) (by decide) h

theorem inPath_alike {c d : Char} (h : c.toLower = d.toLower) : inPath c = inPath d := by
  have hquery := mark_iff (m := '?') (by decide) (by decide) h
  have hfragment := mark_iff (m := '#') (by decide) (by decide) h
  rw [Bool.eq_iff_iff]
  simp [inPath, hquery, hfragment]

theorem inAuthority_alike {c d : Char} (h : c.toLower = d.toLower) :
    inAuthority c = inAuthority d := by
  have hslash := mark_iff (m := '/') (by decide) (by decide) h
  have hquery := mark_iff (m := '?') (by decide) (by decide) h
  have hfragment := mark_iff (m := '#') (by decide) (by decide) h
  rw [Bool.eq_iff_iff]
  simp [inAuthority, hslash, hquery, hfragment]

theorem takeWhile_alike {f : Char → Bool} (hf : ∀ c d : Char, c.toLower = d.toLower → f c = f d)
    {a b : List Char} (h : Alike a b) : Alike (a.takeWhile f) (b.takeWhile f) := by
  induction h with
  | nil => exact .nil
  | @cons c d a b hcd _ ih =>
    rw [List.takeWhile_cons, List.takeWhile_cons, hf c d hcd]
    split
    · exact .cons hcd ih
    · exact .nil

theorem dropWhile_alike {f : Char → Bool} (hf : ∀ c d : Char, c.toLower = d.toLower → f c = f d)
    {a b : List Char} (h : Alike a b) : Alike (a.dropWhile f) (b.dropWhile f) := by
  induction h with
  | nil => exact .nil
  | @cons c d a b hcd hab ih =>
    rw [List.dropWhile_cons, List.dropWhile_cons, hf c d hcd]
    split
    · exact ih
    · exact .cons hcd hab

/-- Where a text has an end in it, so has every text like it, and what follows does not matter. -/
theorem span_append {f : Char → Bool} (hf : ∀ c d : Char, c.toLower = d.toLower → f c = f d)
    {a b : List Char} (h : Alike a b) (hend : ∃ c ∈ a, f c = false) (rest : List Char) :
    (b ++ rest).takeWhile f = b.takeWhile f ∧ (b ++ rest).dropWhile f = b.dropWhile f ++ rest := by
  induction h with
  | nil =>
    obtain ⟨c, hc, -⟩ := hend
    exact absurd hc List.not_mem_nil
  | @cons c d a b hcd hab ih =>
    rw [List.cons_append, List.takeWhile_cons, List.takeWhile_cons, List.dropWhile_cons,
      List.dropWhile_cons]
    cases hd : f d with
    | false => exact ⟨rfl, rfl⟩
    | true =>
      have hend' : ∃ c ∈ a, f c = false := by
        obtain ⟨e, he, hfalse⟩ := hend
        rcases List.mem_cons.mp he with rfl | he
        · rw [hf _ _ hcd, hd] at hfalse
          cases hfalse
        · exact ⟨e, he, hfalse⟩
      obtain ⟨htake, hdrop⟩ := ih hend'
      exact ⟨congrArg (d :: ·) htake, hdrop⟩

theorem length_of_cutScheme {p s r : List Char} (h : cutScheme p = some (s, r)) : 3 ≤ p.length := by
  induction p using cutScheme.induct generalizing s r with
  | case1 rest => simp
  | case2 c rest hmark ih =>
    rw [cutScheme.eq_2 _ _ hmark] at h
    obtain ⟨⟨s', r'⟩, hrest, -⟩ := Option.map_eq_some_iff.mp h
    have := ih hrest
    rw [List.length_cons]
    omega
  | case3 => cases h

/-- A text like a prefix has a scheme like its scheme. -/
theorem cutScheme_alike {p q s r : List Char} (halike : Alike p q) (rest : List Char)
    (h : cutScheme p = some (s, r)) :
    ∃ s' r', cutScheme (q ++ rest) = some (s', r' ++ rest) ∧ Alike s s' ∧ Alike r r' := by
  induction p using cutScheme.induct generalizing q s r with
  | case1 after =>
    obtain ⟨rfl, rfl⟩ := Prod.mk.inj (Option.some.inj h)
    match q, halike with
    | c₁ :: c₂ :: c₃ :: q, .cons h₁ (.cons h₂ (.cons h₃ halike)) =>
      obtain rfl := eq_of_toLower (d := ':') (by decide) (by decide) h₁
      obtain rfl := eq_of_toLower (d := '/') (by decide) (by decide) h₂
      obtain rfl := eq_of_toLower (d := '/') (by decide) (by decide) h₃
      exact ⟨[], q, rfl, .nil, halike⟩
  | case2 c after hmark ih =>
    rw [cutScheme.eq_2 _ _ hmark] at h
    obtain ⟨⟨s, r⟩, hafter, hpair⟩ := Option.map_eq_some_iff.mp h
    obtain ⟨rfl, rfl⟩ := Prod.mk.inj hpair
    match q, halike with
    | d :: q, .cons hd halike =>
      obtain ⟨s', r', hq, hs, hr⟩ := ih halike hafter
      refine ⟨d :: s', r', ?_, .cons hd hs, hr⟩
      rw [List.cons_append, cutScheme.eq_2, hq]
      · rfl
      · -- a mark in the text would be a mark in the prefix
        intro tail hcolon hq'
        have hlength := length_of_cutScheme hafter
        match after, q, halike, hlength with
        | a :: b :: after, a' :: b' :: q, .cons ha (.cons hb _), _ =>
          rw [List.cons_append, List.cons_append, List.cons.injEq, List.cons.injEq] at hq'
          obtain ⟨rfl, rfl, -⟩ := hq'
          subst hcolon
          obtain rfl := eq_of_toLower (d := ':') (by decide) (by decide) hd.symm
          obtain rfl := eq_of_toLower (d := '/') (by decide) (by decide) ha.symm
          obtain rfl := eq_of_toLower (d := '/') (by decide) (by decide) hb.symm
          exact hmark _ rfl rfl
  | case3 => cases h

theorem forall₂_append_left {α : Type} {R : α → α → Prop} {as bs cs : List α}
    (h : List.Forall₂ R (as ++ bs) cs) :
    ∃ ds es, List.Forall₂ R as ds ∧ List.Forall₂ R bs es ∧ cs = ds ++ es := by
  induction as generalizing cs with
  | nil => exact ⟨[], cs, .nil, h, rfl⟩
  | cons a as ih =>
    cases h with
    | cons ha h =>
      obtain ⟨ds, es, hds, hes, rfl⟩ := ih h
      exact ⟨_ :: ds, es, .cons ha hds, hes, rfl⟩

theorem forall₂_singleton_left {α : Type} {R : α → α → Prop} {a : α} {cs : List α}
    (h : List.Forall₂ R [a] cs) : ∃ c, R a c ∧ cs = [c] := by
  cases h with
  | cons ha h =>
    cases h
    exact ⟨_, ha, rfl⟩

theorem splitOn_alike {a b : List Char} (h : Alike a b) :
    List.Forall₂ Alike (a.splitOn '/') (b.splitOn '/') := by
  induction h with
  | nil => exact .cons .nil .nil
  | @cons c d a b hcd _ ih =>
    rw [Pieces.splitOn_cons, Pieces.splitOn_cons]
    by_cases hslash : c = '/'
    · rw [if_pos hslash, if_pos ((slash_iff hcd).mp hslash)]
      exact .cons .nil ih
    · rw [if_neg hslash, if_neg (fun hd => hslash ((slash_iff hcd).mpr hd))]
      generalize a.splitOn '/' = as, b.splitOn '/' = bs at ih
      cases ih with
      | nil => exact .nil
      | cons hfirst hothers => exact .cons (.cons hcd hfirst) hothers

/-! ### An allowed URL, next to its prefix -/

/-- The parts of a valid prefix. -/
theorem prefix_parts {p : List Char} (h : validPrefix p = true) :
    ∃ s r, cutScheme p = some (s, r) ∧ r.getLast? = some '/' := by
  simp only [validPrefix, Bool.and_eq_true, beq_iff_eq] at h
  obtain ⟨⟨⟨-, hlast⟩, hsecond⟩, -⟩ := h
  cases hcut : cutScheme p with
  | none => simp [secondPart, hcut] at hsecond
  | some cut =>
    obtain ⟨s, r⟩ := cut
    refine ⟨s, r, rfl, ?_⟩
    have hne : r ≠ [] := by
      rintro rfl
      simp [secondPart, hcut, cutScheme] at hsecond
    obtain ⟨before, hbefore⟩ : ∃ before, p = before ++ r := by
      clear hlast hsecond hne
      induction p using cutScheme.induct generalizing s r with
      | case1 rest =>
        obtain ⟨rfl, rfl⟩ := Prod.mk.inj (Option.some.inj hcut)
        exact ⟨[':', '/', '/'], rfl⟩
      | case2 c rest hmark ih =>
        rw [cutScheme.eq_2 _ _ hmark] at hcut
        obtain ⟨⟨s', r'⟩, hrest, hpair⟩ := Option.map_eq_some_iff.mp hcut
        obtain ⟨rfl, rfl⟩ := Prod.mk.inj hpair
        obtain ⟨before, hbefore⟩ := ih _ _ hrest
        exact ⟨c :: before, congrArg (c :: ·) hbefore⟩
      | case3 => cases hcut
    rwa [hbefore, List.getLast?_append_of_ne_nil _ hne] at hlast

/-- What is allowed begins like the prefix. -/
theorem allowed_parts {p url : List Char} (h : urlAllowed [p] url = true) :
    ∃ q rest, url = q ++ rest ∧ Alike p q := by
  unfold urlAllowed at h
  split_ifs at h
  simp only [List.any_cons, List.any_nil, Bool.or_false] at h
  obtain ⟨tail, htail⟩ := List.isPrefixOf_iff_prefix.mp h
  refine ⟨url.take p.length, url.drop p.length, (List.take_append_drop _ _).symm, ?_⟩
  rw [alike_iff, lower, lower, List.map_take, ← lower, ← lower, ← htail]
  have hlength : (lower p).length = p.length := List.length_map _
  rw [← hlength, List.take_left]

/-- The segments of a URL, next to those of the prefix that it begins like: its directories are
spelt alike, and the last segment of the prefix is the beginning of the rest. -/
inductive Extends : List (List Char) → List (List Char) → Prop
  | none : Extends [] []
  | file {ds es : List (List Char)} {l m : List Char} : List.Forall₂ Alike ds es → l ≠ [] → Alike l m →
      Extends (ds ++ [l]) (es ++ [m])
  | directory {ds es rest : List (List Char)} : List.Forall₂ Alike ds es → rest ≠ [] →
      Extends (ds ++ [[]]) (es ++ rest)

/-- Segments that are spelt alike. -/
theorem extends_alike {ss ts : List (List Char)} (h : List.Forall₂ Alike ss ts) : Extends ss ts := by
  rcases List.eq_nil_or_concat ss with rfl | ⟨ds, l, rfl⟩
  · rw [List.forall₂_nil_left_iff.mp h]
    exact .none
  · rw [List.concat_eq_append] at h ⊢
    obtain ⟨es, ms, hds, hms, rfl⟩ := forall₂_append_left h
    obtain ⟨m, hm, rfl⟩ := forall₂_singleton_left hms
    by_cases hl : l = []
    · subst hl
      exact .directory hds (by simp)
    · exact .file hds hl hm

/-- The segments of a path that ends in a slash, and of one that goes on from it. -/
theorem extends_directory {x y : List Char} (halike : Alike ('/' :: x) ('/' :: y))
    (hlast : ('/' :: x).getLast? = some '/') (rest : List Char) :
    Extends (x.splitOn '/') ((y ++ rest).splitOn '/') := by
  have hxy : Alike x y := by
    cases halike with
    | cons _ h => exact h
  rcases List.eq_nil_or_concat x with rfl | ⟨x, c, rfl⟩
  · rw [List.forall₂_nil_left_iff.mp hxy, List.nil_append]
    have hnil : List.Forall₂ Alike [] [] := .nil
    exact .directory hnil (List.splitOn_ne_nil '/' rest)
  · rw [List.concat_eq_append] at hxy hlast ⊢
    rw [← List.cons_append, List.getLast?_concat, Option.some.injEq] at hlast
    subst hlast
    obtain ⟨y, slash, hstart, hslash, rfl⟩ := forall₂_append_left hxy
    obtain ⟨d, hd, rfl⟩ := forall₂_singleton_left hslash
    obtain rfl := (slash_iff hd).mp rfl
    have hentry : (x ++ ['/']).splitOn '/' = x.splitOn '/' ++ [[]] :=
      List.splitOn_append_cons_self x []
    rw [hentry, List.append_assoc, List.singleton_append, List.splitOn_append_cons_self]
    exact .directory (splitOn_alike hstart) (List.splitOn_ne_nil '/' rest)

/-- What begins a path that is not empty. -/
theorem slash_of_rooted {c : Char} (hends : inAuthority c = false) (hin : inPath c = true) :
    c = '/' := by
  by_contra hne
  have hpart : inAuthority c = inPath c := by
    rw [inAuthority, inPath, bne_iff_ne.mpr hne, Bool.true_and]
  rw [hpart, hin] at hends
  cases hends

/-- What is spelt like a whole path is one. -/
theorem inPath_of_alike {w w' : List Char} (h : Alike w w') (hwhole : w.takeWhile inPath = w) :
    ∀ c ∈ w', inPath c = true := by
  have hforall := takeWhile_alike (fun _ _ => inPath_alike) h
  rw [hwhole] at hforall
  have hlength := hforall.length_eq.symm.trans h.length_eq
  have heq : w'.takeWhile inPath = w' := (List.takeWhile_prefix inPath).eq_of_length hlength
  rwa [List.takeWhile_eq_self_iff] at heq

/-- After the authority of a directory comes a path, which ends like it. -/
theorem afterAuthority_directory {r : List Char} (hlast : r.getLast? = some '/') :
    r.dropWhile inAuthority ≠ [] ∧ (r.dropWhile inAuthority).getLast? = some '/' ∧
      ∀ c w, r.dropWhile inAuthority = c :: w → inAuthority c = false := by
  have hne : r.dropWhile inAuthority ≠ [] := by
    intro hnil
    have hslash := List.dropWhile_eq_nil_iff.mp hnil '/' (List.mem_of_getLast? hlast)
    cases hslash
  obtain ⟨before, hbefore⟩ := List.dropWhile_suffix (l := r) inAuthority
  refine ⟨hne, ?_, fun c w heq => ?_⟩
  · rwa [← hbefore, List.getLast?_append_of_ne_nil _ hne] at hlast
  · have hhead := List.head?_dropWhile_not inAuthority r
    rw [heq] at hhead
    simpa using hhead

/-- **What is allowed has the scheme and the authority of the prefix, and its segments.** -/
theorem extends_of_allowed {p url : List Char} (hentry : validPrefix p = true)
    (hallowed : urlAllowed [p] url = true) :
    lower (scheme url) = lower (scheme p) ∧ lower (authority url) = lower (authority p) ∧
      Extends (segments p) (segments url) := by
  obtain ⟨s, r, hcut, hlast⟩ := prefix_parts hentry
  obtain ⟨q, rest, rfl, halike⟩ := allowed_parts hallowed
  obtain ⟨s', r', hcut', hs, hr⟩ := cutScheme_alike halike rest hcut
  have hafter : afterScheme p = r := by rw [afterScheme, hcut]; rfl
  have hafter' : afterScheme (q ++ rest) = r' ++ rest := by rw [afterScheme, hcut']; rfl
  have hend : ∃ c ∈ r, inAuthority c = false :=
    ⟨'/', List.mem_of_getLast? hlast, rfl⟩
  obtain ⟨htake, hdrop⟩ := span_append (fun _ _ => inAuthority_alike) hr hend rest
  refine ⟨?_, ?_, ?_⟩
  · rw [scheme, scheme, hcut, hcut']
    exact (alike_iff.mp hs).symm
  · rw [authority, authority, hafter, hafter', htake]
    exact (alike_iff.mp (takeWhile_alike (fun _ _ => inAuthority_alike) hr)).symm
  · have hw := dropWhile_alike (fun _ _ => inAuthority_alike) hr
    have hpath : path p = (r.dropWhile inAuthority).takeWhile inPath := by rw [path, hafter]
    have hpath' : path (q ++ rest) = (r'.dropWhile inAuthority ++ rest).takeWhile inPath := by
      rw [path, hafter', hdrop]
    obtain ⟨hwne, hwlast, hwhead⟩ := afterAuthority_directory hlast
    unfold segments
    rw [hpath, hpath']
    generalize r.dropWhile inAuthority = w at hw hwne hwlast hwhead
    generalize r'.dropWhile inAuthority = w' at hw
    by_cases hquery : ∃ c ∈ w, inPath c = false
    · -- the path of the prefix ends at a query or a fragment, and so does the path of the URL
      rw [(span_append (fun _ _ => inPath_alike) hw hquery rest).1]
      have hpaths := takeWhile_alike (fun _ _ => inPath_alike) hw
      generalize w.takeWhile inPath = path, w'.takeWhile inPath = path' at hpaths
      cases hpaths with
      | nil => exact .none
      | cons _ hpaths => exact extends_alike (splitOn_alike hpaths)
    · have hwhole : w.takeWhile inPath = w := by
        rw [List.takeWhile_eq_self_iff]
        intro c hc
        by_contra hfalse
        exact hquery ⟨c, hc, by simpa using hfalse⟩
      have hwhole' : ∀ c ∈ w', inPath c = true := inPath_of_alike hw hwhole
      rw [hwhole, List.takeWhile_append_of_pos hwhole']
      cases hw with
      | nil => exact absurd rfl hwne
      | @cons c d x y hcd hxy =>
        have hin : inPath c = true := by
          by_contra hfalse
          exact hquery ⟨c, List.mem_cons_self, by simpa using hfalse⟩
        obtain rfl := slash_of_rooted (hwhead c x rfl) hin
        obtain rfl := (slash_iff hcd).mp rfl
        exact extends_directory (.cons rfl hxy) hwlast _

/-! ### Walks -/

theorem isDot_alike {s t : List Char} (h : Alike s t) : isDot s = isDot t := by
  rw [isDot, isDot, alike_iff.mp h]

theorem isDotDot_alike {s t : List Char} (h : Alike s t) : isDotDot s = isDotDot t := by
  rw [isDotDot, isDotDot, alike_iff.mp h]

theorem tail_alike {stack spelt : List (List Char)} (h : List.Forall₂ Alike stack spelt) :
    List.Forall₂ Alike stack.tail spelt.tail := by
  cases h with
  | nil => exact .nil
  | cons _ h => exact h

/-- Directories that are spelt alike are spelt alike after a walk. -/
theorem descend_alike {ss ts stack spelt : List (List Char)} (h : List.Forall₂ Alike ss ts)
    (hstack : List.Forall₂ Alike stack spelt) :
    List.Forall₂ Alike (ss.foldl descend stack) (ts.foldl descend spelt) := by
  induction h generalizing stack spelt with
  | nil => exact hstack
  | @cons s t ss ts hst _ ih =>
    refine ih ?_
    unfold descend
    rw [isDot_alike hst, isDotDot_alike hst]
    split_ifs
    · exact hstack
    · exact tail_alike hstack
    · exact .cons hst hstack

theorem getLast?_alike {ss ts : List (List Char)} (h : List.Forall₂ Alike ss ts) :
    (ss.getLast?.any fun s => isDot s || isDotDot s) =
      ts.getLast?.any fun s => isDot s || isDotDot s := by
  rcases List.eq_nil_or_concat ss with rfl | ⟨ds, l, rfl⟩
  · rw [List.forall₂_nil_left_iff.mp h]
  · rw [List.concat_eq_append] at h ⊢
    obtain ⟨es, ms, -, hms, rfl⟩ := forall₂_append_left h
    obtain ⟨m, hm, rfl⟩ := forall₂_singleton_left hms
    rw [List.getLast?_concat, List.getLast?_concat, Option.any_some, Option.any_some,
      isDot_alike hm, isDotDot_alike hm]

theorem resolve_alike {ss ts : List (List Char)} (h : List.Forall₂ Alike ss ts) :
    List.Forall₂ Alike (resolve ss) (resolve ts) := by
  have hending : ending ss = ending ts := by
    unfold ending
    rw [getLast?_alike h]
  rw [resolve, resolve, hending]
  refine List.rel_append (List.rel_reverse (descend_alike h .nil)) ?_
  exact List.forall₂_same.mpr fun s _ => alike_refl s

/-- **A walk from some directories** climbs a number of levels and goes down again. -/
theorem descend_climb (segments stack : List (List Char)) (walk : ℕ × List (List Char)) :
    segments.foldl descend (walk.2 ++ stack.drop walk.1) =
      (segments.foldl climb walk).2 ++ stack.drop (segments.foldl climb walk).1 := by
  induction segments generalizing walk with
  | nil => rfl
  | cons s segments ih =>
    have hstep : descend (walk.2 ++ stack.drop walk.1) s =
        (climb walk s).2 ++ stack.drop (climb walk s).1 := by
      obtain ⟨left, down⟩ := walk
      unfold descend climb
      split_ifs
      · rfl
      · cases down with
        | nil => simp
        | cons d down => rfl
      · rfl
    rw [List.foldl_cons, List.foldl_cons, hstep, ih]

theorem ending_append (ds : List (List Char)) {rest : List (List Char)} (h : rest ≠ []) :
    ending (ds ++ rest) = ending rest := by
  unfold ending
  rw [List.getLast?_append_of_ne_nil _ h]

/-- A path that goes on from some directories. -/
theorem resolve_append (ds : List (List Char)) {rest : List (List Char)} (h : rest ≠ []) :
    resolve (ds ++ rest) =
      ((ds.foldl descend []).drop (rest.foldl climb (0, [])).1).reverse ++
        ((rest.foldl climb (0, [])).2.reverse ++ ending rest) := by
  have hwalk := descend_climb rest (ds.foldl descend []) (0, [])
  rw [List.drop_zero, List.nil_append] at hwalk
  rw [resolve, List.foldl_append, hwalk, ending_append ds h, List.reverse_append, List.append_assoc]

/-- The path of a prefix that ends in a slash. -/
theorem resolve_directory (ds : List (List Char)) :
    resolve (ds ++ [[]]) = (ds.foldl descend []).reverse ++ [[]] := by
  rw [resolve_append ds (by simp)]
  rfl

theorem under_directory {directories path : List (List Char)} :
    Under (directories ++ [[]]) path ↔ Below directories path := by
  unfold Under
  rw [List.getLast?_concat, List.dropLast_concat]
  constructor
  · rintro (rfl | ⟨-, h⟩)
    · exact ⟨List.prefix_append _ _, by simp⟩
    · exact h
  · exact fun h => .inr ⟨rfl, h⟩

/-- A path goes on from some directories if it spells those that are not left, and enters those
that are. -/
theorem below_iff {stack spelt : List (List Char)} (hlength : stack.length = spelt.length)
    (left : ℕ) (rest : List (List Char)) :
    Below stack.reverse ((spelt.drop left).reverse ++ rest) ↔
      spelt.drop left = stack.drop left ∧ Below (stack.take left).reverse rest := by
  have hsplit : stack.reverse = (stack.drop left).reverse ++ (stack.take left).reverse := by
    rw [← List.reverse_append, List.take_append_drop]
  have hdrop : (stack.drop left).reverse.length = (spelt.drop left).reverse.length := by
    simp [hlength]
  rw [hsplit]
  constructor
  · rintro ⟨⟨tail, htail⟩, hlt⟩
    rw [List.append_assoc] at htail
    obtain ⟨hsame, hrest⟩ := List.append_inj htail hdrop
    refine ⟨(List.reverse_injective hsame).symm, ⟨tail, hrest⟩, ?_⟩
    rw [List.length_append, List.length_append, hdrop] at hlt
    exact Nat.lt_of_add_lt_add_left hlt
  · rintro ⟨hsame, ⟨tail, htail⟩, hlt⟩
    rw [hsame]
    refine ⟨⟨tail, by rw [List.append_assoc, htail]⟩, ?_⟩
    rw [List.length_append, List.length_append]
    exact Nat.add_lt_add_left hlt _

/-- Paths that are spelt alike lie under one another only where they are the same. -/
theorem under_alike {directory path : List (List Char)} (h : List.Forall₂ Alike directory path) :
    Under directory path ↔ path = directory := by
  refine ⟨?_, .inl⟩
  rintro (rfl | ⟨hlast, ⟨tail, htail⟩, hlt⟩)
  · rfl
  · obtain ⟨ds, rfl⟩ : ∃ ds, directory = ds ++ [[]] := List.getLast?_eq_some_iff.mp hlast
    rw [List.dropLast_concat] at htail hlt
    subst htail
    obtain ⟨es, ms, hes, hms, hpath⟩ := forall₂_append_left h
    obtain ⟨m, hm, rfl⟩ := forall₂_singleton_left hms
    obtain ⟨rfl, rfl⟩ := List.append_inj hpath hes.length_eq
    rw [List.forall₂_nil_left_iff.mp hm]

/-- **The path of an allowed URL lies under that of the prefix exactly where it returns.** -/
theorem under_iff {p url : List Char} (h : Extends (segments p) (segments url)) :
    Under (resolve (segments p)) (resolve (segments url)) ↔ Returns p url := by
  unfold Returns
  generalize segments p = ss at h
  generalize segments url = ts at h
  cases h with
  | none => exact iff_of_true (.inl rfl) rfl
  | @file ds es l m hds hl hm =>
    have hlast : (ds ++ [l]).getLast? ≠ some [] := by
      rw [List.getLast?_concat]
      simpa using hl
    refine (under_alike (resolve_alike (List.rel_append hds (.cons hm .nil)))).trans ?_
    simp only [if_neg hlast]
  | @directory ds es rest hds hrest =>
    have hlast : (ds ++ [[]]).getLast? = some [] := List.getLast?_concat
    have hk : (ds ++ [[]]).length - 1 = es.length := by
      rw [List.length_append, hds.length_eq]
      rfl
    have htake : (ds ++ [[]]).take es.length = ds := by
      rw [← hds.length_eq, List.take_left]
    have hstack := (descend_alike hds .nil).length_eq
    simp only [if_pos hlast, hk, htake, List.take_left, List.drop_left]
    rw [resolve_directory, under_directory, resolve_append es hrest, below_iff hstack]

theorem confined_iff {p url : List Char} (hentry : validPrefix p = true)
    (hallowed : urlAllowed [p] url = true) : Confined p url ↔ Returns p url := by
  obtain ⟨hscheme, hauthority, hextends⟩ := extends_of_allowed hentry hallowed
  rw [← under_iff hextends]
  exact ⟨fun h => h.path, fun h => ⟨hscheme, hauthority, h⟩⟩

end UrlSource

/-- **The URL allow-list.**  A URL that is allowed because of a valid prefix has the prefix's
scheme and authority, and its path without dot segments lies under the prefix's path, exactly
where the dot-dots after the prefix leave none of its directories, or the URL enters them again,
and the directories are spelt in the case of the prefix. -/
theorem url_confined {p url : List Char} (hentry : UrlSource.validPrefix p = true)
    (hallowed : UrlSource.urlAllowed [p] url = true) :
    UrlSource.Confined p url ↔ UrlSource.Returns p url :=
  UrlSource.confined_iff hentry hallowed

/-- The prefix of the documentation. -/
def labelsPrefix : List Char := "https://files.example.com/labels/".toList

theorem url_confined_folder :
    UrlSource.Confined labelsPrefix "HTTPS://Files.example.com/labels/old/%2E%2e/a.pdf".toList :=
  (url_confined (by decide +kernel) (by decide +kernel)).mpr (by decide +kernel)

/-- **An encoded dot-dot in mixed case climbs out of the prefix.** -/
theorem url_escapes : UrlSource.validPrefix labelsPrefix = true ∧
    UrlSource.urlAllowed [labelsPrefix] "https://files.example.com/labels/%2e%2E/admin".toList =
      true ∧
    ¬ UrlSource.Confined labelsPrefix "https://files.example.com/labels/%2e%2E/admin".toList := by
  have hentry : UrlSource.validPrefix labelsPrefix = true := by decide +kernel
  have hallowed : UrlSource.urlAllowed [labelsPrefix]
      "https://files.example.com/labels/%2e%2E/admin".toList = true := by decide +kernel
  refine ⟨hentry, hallowed, fun hconfined => ?_⟩
  exact absurd ((UrlSource.confined_iff hentry hallowed).mp hconfined) (by decide +kernel)

end KilnPrint
