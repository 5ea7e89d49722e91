/-
Origins of web pages.

* `normaliseOrigin`, `splitHostPort` — **the normal form of an origin**: the scheme, the host in
  lower case, and the port unless it is the default one;
* `Parts`, `parse`, `render` — the parts that it is put together from;
* `Parts.Settled` — the host and the port of the normal form are read as such again;
* `Parts.Distinct` — two origins that are the same have ports of the same spelling, and no host is
  another's host with its port;
* `origin_canonical` — **the normal form is a fixed point, and equal exactly for the same origins,
  if and only if the parts are settled and distinct**.

Ports are compared as texts, after they have been read as numbers.
-/
import KilnPrint.Agent.UrlSource

namespace KilnPrint

namespace Origin

open UrlSource (lower cutScheme)

/-! ### The normal form -/

/-- `trim_end_matches('/')`. -/
def trimSlashes (text : List Char) : List Char := (text.reverse.dropWhile (· == '/')).reverse

/-- `rsplit_once(':')`. -/
def cutLast (text : List Char) : Option (List Char × List Char) :=
  match text.reverse.dropWhile (· != ':') with
  | [] => none
  | _ :: before => some (before.reverse, (text.reverse.takeWhile (· != ':')).reverse)

/-- `parse::<u16>()`: digits, after a plus sign or not. -/
def parsePort (text : List Char) : Option ℕ :=
  let digits := if text.head? = some '+' then text.tail else text
  if digits ≠ [] ∧ digits.all Char.isDigit then
    let n := digits.foldl (fun n c => n * 10 + (c.toNat - 48)) 0
    if n < 65536 then some n else none
  else none

/-- The host and the port before the port is checked. -/
def cutPort (value : List Char) : Option (List Char × Option (List Char)) :=
  match value with
  | '[' :: rest =>
    match rest.dropWhile (· != ']') with
    | [] => none
    | _ :: after =>
      let host := '[' :: rest.takeWhile (· != ']') ++ [']']
      match after with
      | [] => some (host, none)
      | ':' :: port => some (host, some port)
      | _ => none
  | _ =>
    match cutLast value with
    | some (host, port) => some (host, some port)
    | none => some (value, none)

/-- Splits `host[:port]`, handling bracketed IPv6 literals. -/
def splitHostPort (value : List Char) : Option (List Char × Option (List Char)) := do
  let (host, port) ← cutPort value
  if port.all fun p => (parsePort p).isSome then some (host, port) else none

def defaultPort (scheme : List Char) : Option (List Char) :=
  if scheme = "http".toList then some "80".toList
  else if scheme = "https".toList then some "443".toList
  else none

/-- What no origin holds after its scheme. -/
def forbidden (c : Char) : Bool := ['/', '?', '#', '@', ' '].contains c

/-- A host with the port that is written after it. -/
def withPort (host : List Char) (port : Option (List Char)) : List Char :=
  host ++ port.elim [] (':' :: ·)

/-- The parts of an origin. -/
structure Parts where
  scheme : List Char
  default : List Char
  host : List Char
  port : Option (List Char)
  deriving DecidableEq, Repr

def parse (origin : List Char) : Option Parts := do
  let (scheme, rest) ← cutScheme (trimSlashes (trimWhitespace origin))
  let default ← defaultPort (lower scheme)
  if rest = [] ∨ rest.any forbidden then none
  else
    let (host, port) ← splitHostPort (lower rest)
    if host = [] then none else some ⟨lower scheme, default, host, port⟩

namespace Parts

/-- The port that is written. -/
def shown (x : Parts) : Option (List Char) := if x.port = some x.default then none else x.port

/-- The host and the port that is written. -/
def rest (x : Parts) : List Char := withPort x.host x.shown

def render (x : Parts) : List Char := x.scheme ++ "://".toList ++ x.rest

/-- The effective port number. -/
def number (x : Parts) : Option ℕ := parsePort (x.port.getD x.default)

/-- Two origins have the same scheme, the same host and the same effective port. -/
def Same (x y : Parts) : Prop := x.scheme = y.scheme ∧ x.host = y.host ∧ x.number = y.number

instance (x y : Parts) : Decidable (x.Same y) := inferInstanceAs (Decidable (_ ∧ _ ∧ _))

def bracketed (x : Parts) : Bool := x.host.head? == some '['

/-- A host that is written without a port is read as a host: it is bracketed; or it does not end in
white space and has no colon, except before a port that is not the default one. -/
def Settled (x : Parts) : Prop :=
  x.shown ≠ none ∨ x.bracketed = true ∨
    (¬ x.host.getLast?.any isWhitespace ∧
      (':' ∉ x.host ∨ ∃ host port, host ≠ [] ∧ x.host = host ++ ':' :: port ∧ ':' ∉ port ∧
        (parsePort port).isSome ∧ port ≠ x.default))

/-- One host is the other's host with the port that is written after it. -/
def Absorbs (x y : Parts) : Prop :=
  x.shown = none ∧ ∃ port, y.shown = some port ∧ x.host = y.host ++ ':' :: port

/-- Where two origins are the same, the same port is written for them; and no host is another's
host with its port. -/
def Distinct (x y : Parts) : Prop :=
  (x.Same y → x.shown = y.shown) ∧ (x.scheme = y.scheme → ¬ x.Absorbs y ∧ ¬ y.Absorbs x)

end Parts

/-- `normalise_origin`. -/
def normaliseOrigin (origin : List Char) : Option (List Char) := (parse origin).map Parts.render

/-! ### Cutting texts -/

theorem all_bne {c : Char} {text : List Char} (h : c ∉ text) : ∀ d ∈ text, (d != c) = true := by
  intro d hd
  rw [bne_iff_ne]
  rintro rfl
  exact h hd

theorem not_mem_takeWhile {c : Char} (text : List Char) : c ∉ text.takeWhile (· != c) := by
  intro hmem
  have hne : (c != c) = true := List.mem_takeWhile_imp (p := (· != c)) hmem
  exact bne_iff_ne.mp hne rfl

/-- A text is cut at the first place where a character stands. -/
theorem dropWhile_eq_cons {c d : Char} {text after : List Char}
    (h : text.dropWhile (· != c) = d :: after) :
    d = c ∧ text = text.takeWhile (· != c) ++ c :: after := by
  have hne : text.dropWhile (· != c) ≠ [] := by rw [h]; exact List.cons_ne_nil d after
  obtain rfl : d = c := by
    have hhead := List.head_dropWhile_not (p := (· != c)) hne
    simpa only [h, List.head_cons, bne_eq_false_iff_eq] using hhead
  refine ⟨rfl, ?_⟩
  rw [← h, List.takeWhile_append_dropWhile]

theorem takeWhile_append_cons {c : Char} {before : List Char} (h : c ∉ before)
    (after : List Char) : (before ++ c :: after).takeWhile (· != c) = before := by
  rw [List.takeWhile_append_of_pos (all_bne h), List.takeWhile_cons_of_neg (by simp),
    List.append_nil]

theorem dropWhile_append_cons {c : Char} {before : List Char} (h : c ∉ before)
    (after : List Char) : (before ++ c :: after).dropWhile (· != c) = c :: after := by
  rw [List.dropWhile_append_of_pos (all_bne h), List.dropWhile_cons_of_neg (by simp)]

theorem cutLast_append {port : List Char} (h : ':' ∉ port) (host : List Char) :
    cutLast (host ++ ':' :: port) = some (host, port) := by
  have hport : ':' ∉ port.reverse := by rwa [List.mem_reverse]
  have hreverse : (host ++ ':' :: port).reverse = port.reverse ++ ':' :: host.reverse := by
    rw [List.reverse_append, List.reverse_cons, List.append_assoc, List.singleton_append]
  rw [cutLast, hreverse, dropWhile_append_cons hport, takeWhile_append_cons hport]
  simp only [List.reverse_reverse]

theorem cutLast_of_not_mem {text : List Char} (h : ':' ∉ text) : cutLast text = none := by
  have hreverse : ':' ∉ text.reverse := by rwa [List.mem_reverse]
  rw [cutLast, List.dropWhile_eq_nil_iff.mpr (all_bne hreverse)]

theorem cutLast_cases (text : List Char) :
    (':' ∉ text ∧ cutLast text = none) ∨
      ∃ host port, text = host ++ ':' :: port ∧ ':' ∉ port ∧ cutLast text = some (host, port) := by
  by_cases hmem : ':' ∈ text
  · right
    have hne : text.reverse.dropWhile (· != ':') ≠ [] := by
      intro hnil
      have := List.dropWhile_eq_nil_iff.mp hnil ':' (List.mem_reverse.mpr hmem)
      exact bne_iff_ne.mp this rfl
    obtain ⟨d, before, hcut⟩ := List.exists_cons_of_ne_nil hne
    obtain ⟨-, hsplit⟩ := dropWhile_eq_cons hcut
    have hport := not_mem_takeWhile (c := ':') text.reverse
    generalize text.reverse.takeWhile (· != ':') = port at hsplit hport
    have htext : text = before.reverse ++ ':' :: port.reverse := by
      rw [← List.reverse_reverse text, hsplit]
      simp
    have hport' : ':' ∉ port.reverse := by rwa [List.mem_reverse]
    exact ⟨_, _, htext, hport', htext ▸ cutLast_append hport' _⟩
  · exact .inl ⟨hmem, cutLast_of_not_mem hmem⟩

theorem cutPort_plain {value : List Char} (h : value.head? ≠ some '[') :
    cutPort value = match cutLast value with
      | some (host, port) => some (host, some port)
      | none => some (value, none) := by
  unfold cutPort
  split
  · exact absurd rfl h
  · rfl

theorem cutPort_bracketed {inner : List Char} (h : ']' ∉ inner) (port : Option (List Char)) :
    cutPort (withPort ('[' :: inner ++ [']']) port) = some ('[' :: inner ++ [']'], port) := by
  have hvalue : withPort ('[' :: inner ++ [']']) port =
      '[' :: (inner ++ ']' :: port.elim [] (':' :: ·)) := by
    simp only [withPort, List.cons_append, List.append_assoc, List.nil_append]
  rw [hvalue]
  cases port with
  | none => simp only [cutPort, dropWhile_append_cons h, takeWhile_append_cons h, Option.elim_none]
  | some port =>
    simp only [cutPort, dropWhile_append_cons h, takeWhile_append_cons h, Option.elim_some]

/-- A host that is cut off is bracketed, or it has no bracket in front and the port begins at the
last colon. -/
theorem cutPort_cases {value host : List Char} {port : Option (List Char)}
    (h : cutPort value = some (host, port)) :
    value = withPort host port ∧
      ((∃ inner, ']' ∉ inner ∧ host = '[' :: inner ++ [']']) ∨
        (value.head? ≠ some '[' ∧ (port = none → ':' ∉ host))) := by
  by_cases hhead : value.head? = some '['
  · obtain ⟨rest, rfl⟩ := List.head?_eq_some_iff.mp hhead
    unfold cutPort at h
    simp only at h
    split at h
    · cases h
    · rename_i d after hcut
      obtain ⟨-, hsplit⟩ := dropWhile_eq_cons hcut
      have hinner := not_mem_takeWhile (c := ']') rest
      generalize rest.takeWhile (· != ']') = inner at hsplit hinner h
      subst hsplit
      split at h
      · obtain ⟨rfl, rfl⟩ := Prod.mk.inj (Option.some.inj h)
        exact ⟨by simp [withPort], .inl ⟨inner, hinner, rfl⟩⟩
      · obtain ⟨rfl, rfl⟩ := Prod.mk.inj (Option.some.inj h)
        exact ⟨by simp [withPort], .inl ⟨inner, hinner, rfl⟩⟩
      · cases h
  · rw [cutPort_plain hhead] at h
    obtain ⟨hmem, hnone⟩ | ⟨before, after, rfl, hport, hsome⟩ := cutLast_cases value
    · rw [hnone] at h
      obtain ⟨rfl, rfl⟩ := Prod.mk.inj (Option.some.inj h)
      exact ⟨by simp [withPort], .inr ⟨hhead, fun _ => hmem⟩⟩
    · rw [hsome] at h
      obtain ⟨rfl, rfl⟩ := Prod.mk.inj (Option.some.inj h)
      exact ⟨rfl, .inr ⟨hhead, fun hnone => nomatch hnone⟩⟩

/-! ### Ports -/

/-- A port is digits, after a plus sign or not. -/
theorem parsePort_digits {port : List Char} (h : (parsePort port).isSome) :
    ∃ digits, digits ≠ [] ∧ (∀ c ∈ digits, c.isDigit = true) ∧
      (port = digits ∨ port = '+' :: digits) := by
  unfold parsePort at h
  simp only at h
  by_cases hdigits : (if port.head? = some '+' then port.tail else port) ≠ [] ∧
      (if port.head? = some '+' then port.tail else port).all Char.isDigit
  · refine ⟨_, hdigits.1, List.all_eq_true.mp hdigits.2, ?_⟩
    by_cases hplus : port.head? = some '+'
    · obtain ⟨tail, rfl⟩ := List.head?_eq_some_iff.mp hplus
      exact .inr rfl
    · rw [if_neg hplus]
      exact .inl rfl
  · rw [if_neg hdigits] at h
    exact absurd h Bool.false_ne_true

theorem not_colon_of_parsePort {port : List Char} (h : (parsePort port).isSome) : ':' ∉ port := by
  obtain ⟨digits, -, hall, rfl | rfl⟩ := parsePort_digits h
  · intro hmem
    exact absurd (hall _ hmem) (by decide)
  · rintro (_ | ⟨_, hmem⟩)
    exact absurd (hall _ hmem) (by decide)

theorem getLast?_of_parsePort {port : List Char} (h : (parsePort port).isSome) (before : List Char) :
    ∃ c, (before ++ port).getLast? = some c ∧ c.isDigit = true := by
  obtain ⟨digits, hne, hall, hport⟩ := parsePort_digits h
  obtain ⟨c, hc⟩ := Option.ne_none_iff_exists'.mp (mt List.getLast?_eq_none_iff.mp hne)
  have hlast : ∀ before : List Char, (before ++ digits).getLast? = some c := by
    intro before
    rw [List.getLast?_append, hc, Option.some_or]
  refine ⟨c, ?_, hall c (List.mem_of_getLast? hc)⟩
  obtain rfl | rfl := hport
  · exact hlast before
  · have := hlast (before ++ ['+'])
    rwa [List.append_assoc, List.singleton_append] at this

/-! ### White space and slashes at the ends -/

theorem dropWhile_of_head {f : Char → Bool} {text : List Char} (h : text.head?.any f = false) :
    text.dropWhile f = text := by
  cases text with
  | nil => rfl
  | cons c text => exact List.dropWhile_cons_of_neg (by simpa using h)

theorem trimWhitespace_of_ends {text : List Char} (hhead : text.head?.any isWhitespace = false)
    (hlast : text.getLast?.any isWhitespace = false) : trimWhitespace text = text := by
  rw [trimWhitespace, dropWhile_of_head hhead,
    dropWhile_of_head (by rwa [List.head?_reverse]), List.reverse_reverse]

theorem trimSlashes_of_last {text : List Char} (h : text.getLast? ≠ some '/') :
    trimSlashes text = text := by
  rw [trimSlashes, dropWhile_of_head, List.reverse_reverse]
  rw [List.head?_reverse]
  cases hlast : text.getLast? with
  | none => rfl
  | some c =>
    have hne : c ≠ '/' := by
      rintro rfl
      exact h hlast
    simpa using hne

theorem length_trimSlashes (text : List Char) : (trimSlashes text).length ≤ text.length := by
  rw [trimSlashes, List.length_reverse]
  exact ((List.dropWhile_sublist _).length_le).trans_eq List.length_reverse

/-- White space at the end is taken away. -/
theorem length_trimWhitespace_lt {text : List Char} (hhead : text.head?.any isWhitespace = false)
    (hlast : text.getLast?.any isWhitespace = true) : (trimWhitespace text).length < text.length := by
  have hlength : text.reverse.length = text.length := List.length_reverse
  rw [trimWhitespace, dropWhile_of_head hhead, List.length_reverse, ← hlength]
  rw [← List.head?_reverse] at hlast
  cases hreverse : text.reverse with
  | nil =>
    rw [hreverse] at hlast
    cases hlast
  | cons c rest =>
    rw [hreverse] at hlast
    rw [List.dropWhile_cons_of_pos (by simpa using hlast), List.length_cons]
    exact Nat.lt_succ_of_le (List.dropWhile_sublist _).length_le

/-! ### Reading and writing the parts -/

theorem cutScheme_eq {text scheme rest : List Char} (h : cutScheme text = some (scheme, rest)) :
    text = scheme ++ "://".toList ++ rest := by
  induction text using UrlSource.cutScheme.induct generalizing scheme rest with
  | case1 after =>
    obtain ⟨rfl, rfl⟩ := Prod.mk.inj (Option.some.inj h)
    rfl
  | case2 c after hmark ih =>
    rw [UrlSource.cutScheme.eq_2 _ _ hmark] at h
    obtain ⟨⟨s, r⟩, hafter, hpair⟩ := Option.map_eq_some_iff.mp h
    obtain ⟨rfl, rfl⟩ := Prod.mk.inj hpair
    rw [ih hafter]
    rfl
  | case3 => cases h

theorem defaultPort_cases {scheme port : List Char} (h : defaultPort scheme = some port) :
    (scheme = "http".toList ∧ port = "80".toList) ∨
      (scheme = "https".toList ∧ port = "443".toList) := by
  unfold defaultPort at h
  split at h
  · rename_i hscheme
    exact .inl ⟨hscheme, (Option.some.inj h).symm⟩
  · split at h
    · rename_i hscheme
      exact .inr ⟨hscheme, (Option.some.inj h).symm⟩
    · cases h

theorem toLower_toLower (c : Char) : c.toLower.toLower = c.toLower := by
  by_cases hupper : c.val ≥ 'A'.val ∧ c.val ≤ 'Z'.val
  · have hlow : 65 ≤ c.toNat := hupper.1
    have hhigh : c.toNat ≤ 90 := hupper.2
    have hval : c.toLower.val = c.val + 32 := congrArg Char.val (dif_pos hupper)
    have hnat : c.toLower.val.toNat = (c.toNat + 32) % 4294967296 := by
      rw [hval]
      rfl
    refine dif_neg ?_
    rintro ⟨-, hupper⟩
    have hupper : c.toLower.val.toNat ≤ 90 := hupper
    omega
  · have hfixed : c.toLower = c := dif_neg hupper
    rw [hfixed, hfixed]

theorem forbidden_lower (c : Char) : forbidden c.toLower = forbidden c := by
  have hlower : c.toLower.toLower = c.toLower := toLower_toLower c
  have hslash := UrlSource.mark_iff (m := '/') (by decide) (by decide) hlower
  have hquery := UrlSource.mark_iff (m := '?') (by decide) (by decide) hlower
  have hfragment := UrlSource.mark_iff (m := '#') (by decide) (by decide) hlower
  have huser := UrlSource.mark_iff (m := '@') (by decide) (by decide) hlower
  have hblank := UrlSource.mark_iff (m := ' ') (by decide) (by decide) hlower
  rw [Bool.eq_iff_iff]
  simp [forbidden, hslash, hquery, hfragment, huser, hblank]

/-- A text in lower case that has nothing forbidden in it. -/
def Plain (text : List Char) : Prop := ∀ c ∈ text, c.toLower = c ∧ forbidden c = false

theorem plain_lower {text : List Char} (h : text.any forbidden = false) : Plain (lower text) := by
  intro c hc
  obtain ⟨d, hd, rfl⟩ := List.mem_map.mp hc
  refine ⟨toLower_toLower d, ?_⟩
  rw [forbidden_lower]
  simpa using List.any_eq_false.mp h d hd

theorem lower_of_plain {text : List Char} (h : Plain text) : lower text = text :=
  (List.map_congr_left fun c hc => (h c hc).1).trans (List.map_id' text)

theorem any_forbidden_of_plain {text : List Char} (h : Plain text) : text.any forbidden = false := by
  rw [List.any_eq_false]
  intro c hc
  rw [(h c hc).2]
  exact Bool.false_ne_true

/-- What the parts of an origin always are. -/
structure Parts.Valid (x : Parts) : Prop where
  default : defaultPort x.scheme = some x.default
  plain : Plain (withPort x.host x.port)
  cut : cutPort (withPort x.host x.port) = some (x.host, x.port)
  port : x.port.all (fun p => (parsePort p).isSome) = true
  host : x.host ≠ []

theorem Parts.length_rest (x : Parts) : x.rest.length ≤ (withPort x.host x.port).length := by
  rw [Parts.rest, Parts.shown]
  split
  · simp only [withPort, List.length_append, Option.elim_none, List.length_nil]
    omega
  · exact le_refl _

/-- The parts come from a text that is no shorter than the normal form. -/
theorem parse_spec {text : List Char} {x : Parts} (h : parse text = some x) :
    x.Valid ∧ x.render.length ≤ (trimWhitespace text).length := by
  simp only [parse, splitHostPort, Option.bind_eq_bind, Option.bind_eq_some_iff] at h
  obtain ⟨⟨scheme, rest⟩, hscheme, default, hdefault, h⟩ := h
  simp only at hscheme hdefault h
  split at h
  · cases h
  · rename_i hrest
    obtain ⟨-, hplain⟩ := not_or.mp hrest
    obtain ⟨⟨host, port⟩, hsplit, h⟩ := Option.bind_eq_some_iff.mp h
    obtain ⟨⟨host', port'⟩, hcut, hport⟩ := Option.bind_eq_some_iff.mp hsplit
    simp only at h hport
    split at hport
    · rename_i hnumber
      obtain ⟨rfl, rfl⟩ := Prod.mk.inj (Option.some.inj hport)
      split at h
      · cases h
      · rename_i hhost
        obtain rfl := Option.some.inj h
        obtain ⟨hwritten, -⟩ := cutPort_cases hcut
        have hplain := plain_lower (Bool.eq_false_iff.mpr hplain)
        refine ⟨⟨hdefault, hwritten ▸ hplain, hwritten ▸ hcut, hnumber, hhost⟩, ?_⟩
        have hlength := length_trimSlashes (trimWhitespace text)
        rw [cutScheme_eq hscheme] at hlength
        refine le_trans ?_ hlength
        have hshown := Parts.length_rest ⟨lower scheme, default, host', port'⟩
        have hrest : (withPort host' port').length = rest.length := by
          rw [← hwritten, lower, List.length_map]
        simp only [Parts.render, List.length_append, lower, List.length_map] at hshown ⊢
        omega
    · cases hport

/-- What is written and begins with a scheme is read with this scheme. -/
theorem parse_written {scheme default rest : List Char} (hscheme : defaultPort scheme = some default)
    (hplain : Plain rest) (hne : rest ≠ []) (hlast : rest.getLast?.any isWhitespace = false) :
    parse (scheme ++ "://".toList ++ rest) = (splitHostPort rest).bind fun (host, port) =>
      if host = [] then none else some ⟨scheme, default, host, port⟩ := by
  have hgetLast : (scheme ++ "://".toList ++ rest).getLast? = rest.getLast? := by
    rw [List.getLast?_append_of_ne_nil _ hne]
  have hslash : rest.getLast? ≠ some '/' := by
    intro heq
    exact absurd (hplain _ (List.mem_of_getLast? heq)).2 (by decide)
  have hhead : (scheme ++ "://".toList ++ rest).head?.any isWhitespace = false := by
    have hletter : isWhitespace 'h' = false := by decide
    obtain ⟨rfl, -⟩ | ⟨rfl, -⟩ := defaultPort_cases hscheme
    · exact hletter
    · exact hletter
  have htrim : trimSlashes (trimWhitespace (scheme ++ "://".toList ++ rest)) =
      scheme ++ "://".toList ++ rest := by
    rw [trimWhitespace_of_ends hhead (by rwa [hgetLast]), trimSlashes_of_last (by rwa [hgetLast])]
  have hcut : cutScheme (scheme ++ "://".toList ++ rest) = some (scheme, rest) ∧
      lower scheme = scheme := by
    obtain ⟨rfl, -⟩ | ⟨rfl, -⟩ := defaultPort_cases hscheme
    · exact ⟨rfl, by decide⟩
    · exact ⟨rfl, by decide⟩
  have hallowed : ¬(rest = [] ∨ rest.any forbidden) := by
    rw [any_forbidden_of_plain hplain]
    exact not_or.mpr ⟨hne, Bool.false_ne_true⟩
  simp only [parse, htrim, hcut.1, hcut.2, hscheme, lower_of_plain hplain, if_neg hallowed,
    Option.bind_eq_bind, Option.bind_some]

theorem splitHostPort_of_cut {value host : List Char} {port : Option (List Char)}
    (h : cutPort value = some (host, port)) (hport : port.all (fun p => (parsePort p).isSome) = true) :
    splitHostPort value = some (host, port) := by
  simp only [splitHostPort, h, Option.bind_eq_bind, Option.bind_some, if_pos hport]

namespace Parts

variable {x : Parts}

theorem mem_rest {c : Char} (h : c ∈ x.rest) : c ∈ withPort x.host x.port := by
  unfold rest shown at h
  split at h
  · rw [withPort, Option.elim_none, List.append_nil] at h
    exact List.mem_append_left _ h
  · exact h

theorem port_of_shown {port : List Char} (h : x.shown = some port) : x.port = some port := by
  unfold shown at h
  split at h
  · cases h
  · exact h

theorem head_of_bracketed (h : x.bracketed = false) : x.host.head? ≠ some '[' := by
  intro hhead
  rw [bracketed, hhead] at h
  cases h

namespace Valid

theorem plain_rest (h : x.Valid) : Plain x.rest := fun _ hc => h.plain _ (mem_rest hc)

theorem rest_ne_nil (h : x.Valid) : x.rest ≠ [] := List.append_ne_nil_of_left_ne_nil h.host _

/-- The normal form is read as its host and its port are. -/
theorem parse_render (h : x.Valid) (hlast : x.rest.getLast?.any isWhitespace = false) :
    parse x.render = (splitHostPort x.rest).bind fun (host, port) =>
      if host = [] then none else some ⟨x.scheme, x.default, host, port⟩ :=
  parse_written h.default h.plain_rest h.rest_ne_nil hlast

theorem isWhitespace_digit {c : Char} (h : c.isDigit = true) : isWhitespace c = false := by
  have hlow : 48 ≤ c.toNat := by
    have := (Bool.and_eq_true_iff.mp h).1
    exact of_decide_eq_true this
  have hhigh : c.toNat ≤ 57 := by
    have := (Bool.and_eq_true_iff.mp h).2
    exact of_decide_eq_true this
  rw [Bool.eq_false_iff]
  intro hblank
  simp only [isWhitespace, List.mem_cons, List.not_mem_nil, or_false, Bool.or_eq_true,
    Bool.and_eq_true, decide_eq_true_eq] at hblank
  omega

theorem number_shown (h : x.Valid) {port : List Char} (hshown : x.shown = some port) :
    (parsePort port).isSome := by
  have hnumber := h.port
  rwa [port_of_shown hshown, Option.all_some] at hnumber

/-- A port that is written is read again. -/
theorem parse_of_shown (h : x.Valid) {port : List Char} (hshown : x.shown = some port) :
    parse x.render = some x := by
  have hport := port_of_shown hshown
  obtain ⟨c, hc, hdigit⟩ := getLast?_of_parsePort (h.number_shown hshown) (x.host ++ [':'])
  have hrest : x.rest = withPort x.host x.port := by rw [rest, hshown, hport]
  have hlast : x.rest.getLast? = some c := by
    rw [← hc, hrest, hport, withPort, Option.elim_some, List.append_assoc, List.singleton_append]
  have hblank : x.rest.getLast?.any isWhitespace = false := by
    rw [hlast]
    exact isWhitespace_digit hdigit
  rw [h.parse_render hblank, hrest, splitHostPort_of_cut h.cut h.port, Option.bind_some]
  exact if_neg h.host

/-- A bracketed host is read again. -/
theorem parse_of_bracketed (h : x.Valid) (hshown : x.shown = none) (hbracket : x.bracketed = true) :
    parse x.render = some { x with port := none } := by
  have hrest : x.rest = withPort x.host none := by rw [rest, hshown]
  obtain ⟨-, ⟨inner, hinner, hhost⟩ | ⟨hhead, -⟩⟩ := cutPort_cases h.cut
  · have hblank : x.rest.getLast?.any isWhitespace = false := by
      have hlast : x.rest.getLast? = some ']' := by
        rw [hrest, hhost, withPort, Option.elim_none, List.append_nil, List.getLast?_concat]
      rw [hlast]
      decide
    have hcut : cutPort x.rest = some (x.host, none) := by
      rw [hrest, hhost, cutPort_bracketed hinner]
    rw [h.parse_render hblank, splitHostPort_of_cut hcut rfl, Option.bind_some]
    exact if_neg h.host
  · refine absurd ?_ hhead
    have hbracket : x.host.head? = some '[' := by simpa [bracketed] using hbracket
    rw [withPort, List.head?_append, hbracket, Option.some_or]

/-- A host with neither a port nor brackets is cut at its last colon. -/
theorem parse_of_plain (h : x.Valid) (hshown : x.shown = none) (hbracket : x.bracketed = false)
    (hlast : x.host.getLast?.any isWhitespace = false) :
    (':' ∉ x.host ∧ parse x.render = some { x with port := none }) ∨
      ∃ host port, x.host = host ++ ':' :: port ∧ ':' ∉ port ∧
        parse x.render = if (parsePort port).isSome ∧ host ≠ [] then
          some { x with host, port := some port } else none := by
  have hrest : x.rest = x.host := by rw [rest, hshown, withPort, Option.elim_none, List.append_nil]
  have hcut := cutPort_plain (head_of_bracketed hbracket)
  obtain ⟨hmem, hnone⟩ | ⟨host, port, hhost, hport, hsome⟩ := cutLast_cases x.host
  · left
    rw [hnone] at hcut
    rw [h.parse_render (by rwa [hrest]), hrest, splitHostPort_of_cut hcut rfl, Option.bind_some]
    exact ⟨hmem, if_neg h.host⟩
  · right
    refine ⟨host, port, hhost, hport, ?_⟩
    rw [hsome] at hcut
    rw [h.parse_render (by rwa [hrest]), hrest]
    by_cases hnumber : (parsePort port).isSome
    · rw [splitHostPort_of_cut hcut hnumber, Option.bind_some]
      by_cases hempty : host = []
      · rw [if_neg fun hboth => hboth.2 hempty]
        exact if_pos hempty
      · rw [if_pos ⟨hnumber, hempty⟩]
        exact if_neg hempty
    · have hsplit : splitHostPort x.host = none := by
        simp only [splitHostPort, hcut, Option.bind_eq_bind, Option.bind_some, Option.all_some,
          if_neg hnumber]
      rw [hsplit, if_neg fun hboth => hnumber hboth.1, Option.bind_none]

end Valid

end Parts

/-! ### Fixed points -/

namespace Parts

variable {x y : Parts}

/-- A white space at the end of the normal form is lost. -/
theorem normaliseOrigin_blank (h : x.Valid) (hlast : x.rest.getLast?.any isWhitespace = true) :
    normaliseOrigin x.render ≠ some x.render := by
  intro hfixed
  obtain ⟨y, hy, hrender⟩ := Option.map_eq_some_iff.mp hfixed
  have hlength := (parse_spec hy).2
  have hblank : x.render.getLast?.any isWhitespace = true := by
    rwa [render, List.getLast?_append_of_ne_nil _ h.rest_ne_nil]
  have hhead : x.render.head?.any isWhitespace = false := by
    have hletter : isWhitespace 'h' = false := by decide
    unfold render
    obtain ⟨hscheme, -⟩ | ⟨hscheme, -⟩ := defaultPort_cases h.default
    · rw [hscheme]
      exact hletter
    · rw [hscheme]
      exact hletter
  have hless := length_trimWhitespace_lt hhead hblank
  rw [hrender] at hlength
  omega

/-- **The normal form is a fixed point exactly if the parts are settled.** -/
theorem Valid.settled_iff (h : x.Valid) : normaliseOrigin x.render = some x.render ↔ x.Settled := by
  cases hshown : x.shown with
  | some port =>
    refine iff_of_true ?_ (.inl (by rw [hshown]; exact Option.some_ne_none port))
    rw [normaliseOrigin, h.parse_of_shown hshown, Option.map_some]
  | none =>
    have hrest : x.rest = x.host := by rw [rest, hshown, withPort, Option.elim_none, List.append_nil]
    have hrender : render { x with port := none } = x.render := by
      have hnone : shown { x with port := none } = none := by
        unfold shown
        split
        · rfl
        · rfl
      rw [render, render, rest, rest, hnone, hshown]
    cases hbracket : x.bracketed with
    | true =>
      refine iff_of_true ?_ (.inr (.inl hbracket))
      rw [normaliseOrigin, h.parse_of_bracketed hshown hbracket, Option.map_some, hrender]
    | false =>
      have hsettled : x.Settled ↔ ¬x.host.getLast?.any isWhitespace ∧
          (':' ∉ x.host ∨ ∃ host port, host ≠ [] ∧ x.host = host ++ ':' :: port ∧ ':' ∉ port ∧
            (parsePort port).isSome ∧ port ≠ x.default) := by
        unfold Settled
        simp only [hshown, hbracket, ne_eq, not_true_eq_false, Bool.false_eq_true, false_or]
      rw [hsettled]
      cases hlast : x.host.getLast?.any isWhitespace with
      | true => exact iff_of_false (normaliseOrigin_blank h (by rwa [hrest])) fun hnot => hnot.1 rfl
      | false =>
        obtain ⟨hmem, hparse⟩ | ⟨host, port, hhost, hport, hparse⟩ :=
          h.parse_of_plain hshown hbracket hlast
        · refine iff_of_true ?_ ⟨Bool.false_ne_true, .inl hmem⟩
          rw [normaliseOrigin, hparse, Option.map_some, hrender]
        · rw [normaliseOrigin, hparse]
          have hcut : (':' ∉ x.host ∨ ∃ host port, host ≠ [] ∧ x.host = host ++ ':' :: port ∧
              ':' ∉ port ∧ (parsePort port).isSome ∧ port ≠ x.default) ↔
                ((parsePort port).isSome ∧ host ≠ []) ∧ port ≠ x.default := by
            constructor
            · rintro (hmem | ⟨before, after, hne, hhost', hafter, hnumber, hdefault⟩)
              · exact absurd (hhost ▸ List.mem_append_right _ List.mem_cons_self) hmem
              · have hsame := cutLast_append hport host
                rw [← hhost, hhost', cutLast_append hafter] at hsame
                obtain ⟨rfl, rfl⟩ := Prod.mk.inj (Option.some.inj hsame)
                exact ⟨⟨hnumber, hne⟩, hdefault⟩
            · rintro ⟨⟨hnumber, hne⟩, hdefault⟩
              exact .inr ⟨host, port, hne, hhost, hport, hnumber, hdefault⟩
          rw [hcut, and_iff_right Bool.false_ne_true]
          split
          · rename_i hboth
            rw [and_iff_right hboth, Option.map_some, Option.some_inj]
            have hrest' : x.rest = withPort host (some port) := by
              rw [hrest, hhost, withPort, Option.elim_some]
            unfold render
            rw [List.append_cancel_left_eq, hrest', rest, withPort, withPort,
              List.append_cancel_left_eq]
            by_cases hdefault : port = x.default
            · -- the default port that the host ends in is left out the second time
              refine iff_of_false ?_ fun hne => hne hdefault
              rw [shown, if_pos (congrArg some hdefault)]
              exact (List.cons_ne_nil ':' port).symm
            · refine iff_of_true ?_ hdefault
              rw [shown, if_neg fun heq => hdefault (Option.some.inj heq)]
          · rename_i hboth
            exact iff_of_false (fun h => nomatch h) fun h => hboth h.1

/-! ### Equal normal forms -/

theorem withPort_inj {host host' port port' : List Char} (hport : ':' ∉ port) (hport' : ':' ∉ port')
    (h : withPort host (some port) = withPort host' (some port')) : host = host' ∧ port = port' := by
  have hcut := cutLast_append hport host
  rw [withPort, withPort, Option.elim_some, Option.elim_some] at h
  rw [h, cutLast_append hport' host'] at hcut
  obtain ⟨rfl, rfl⟩ := Prod.mk.inj (Option.some.inj hcut)
  exact ⟨rfl, rfl⟩

theorem Valid.not_colon (h : x.Valid) {port : List Char} (hshown : x.shown = some port) :
    ':' ∉ port :=
  not_colon_of_parsePort (h.number_shown hshown)

/-- Texts of a host and a port are equal only if both parts are, unless a host takes in the
other's port. -/
theorem rest_cases (hx : x.Valid) (hy : y.Valid) (h : x.rest = y.rest) :
    (x.host = y.host ∧ x.shown = y.shown) ∨ x.Absorbs y ∨ y.Absorbs x := by
  cases hshown : x.shown with
  | none =>
    cases hshown' : y.shown with
    | none =>
      left
      simpa only [rest, hshown, hshown', withPort, Option.elim_none, List.append_nil, and_true] using h
    | some port =>
      right; left
      refine ⟨hshown, port, hshown', ?_⟩
      simpa only [rest, hshown, hshown', withPort, Option.elim_none, List.append_nil,
        Option.elim_some] using h
  | some port =>
    cases hshown' : y.shown with
    | none =>
      right; right
      refine ⟨hshown', port, hshown, ?_⟩
      simpa only [rest, hshown, hshown', withPort, Option.elim_none, List.append_nil,
        Option.elim_some] using h.symm
    | some port' =>
      left
      rw [rest, rest, hshown, hshown'] at h
      obtain ⟨hhost, rfl⟩ := withPort_inj (hx.not_colon hshown) (hy.not_colon hshown') h
      exact ⟨hhost, rfl⟩

theorem Absorbs.host_ne (h : x.Absorbs y) : x.host ≠ y.host := by
  obtain ⟨-, port, -, hhost⟩ := h
  intro heq
  have hlength := congrArg List.length (hhost.symm.trans heq)
  rw [List.length_append, List.length_cons] at hlength
  omega

theorem Absorbs.rest_eq (h : x.Absorbs y) : x.rest = y.rest := by
  obtain ⟨hshown, port, hshown', hhost⟩ := h
  rw [rest, rest, hshown, hshown', hhost, withPort, withPort, Option.elim_none, Option.elim_some,
    List.append_nil]

theorem render_inj (hx : x.Valid) (hy : y.Valid) :
    x.render = y.render ↔ x.scheme = y.scheme ∧ x.rest = y.rest := by
  constructor
  · intro h
    unfold render at h
    obtain ⟨hscheme, -⟩ | ⟨hscheme, -⟩ := defaultPort_cases hx.default
    · obtain ⟨hscheme', -⟩ | ⟨hscheme', -⟩ := defaultPort_cases hy.default
      · rw [hscheme, hscheme'] at h ⊢
        exact ⟨rfl, List.append_cancel_left h⟩
      · rw [hscheme, hscheme'] at h
        exact absurd (congrArg (·[4]?) h) (by simp)
    · obtain ⟨hscheme', -⟩ | ⟨hscheme', -⟩ := defaultPort_cases hy.default
      · rw [hscheme, hscheme'] at h
        exact absurd (congrArg (·[4]?) h) (by simp)
      · rw [hscheme, hscheme'] at h ⊢
        exact ⟨rfl, List.append_cancel_left h⟩
  · rintro ⟨hscheme, hrest⟩
    rw [render, render, hscheme, hrest]

/-- The port that is written gives the port number. -/
theorem number_eq (x : Parts) : x.number = parsePort (x.shown.getD x.default) := by
  unfold number shown
  split
  · rename_i hport
    rw [hport, Option.getD_some, Option.getD_none]
  · rfl

theorem Valid.default_eq (hx : x.Valid) (hy : y.Valid) (h : x.scheme = y.scheme) :
    x.default = y.default := by
  have hdefault := hx.default
  rw [h, hy.default] at hdefault
  exact (Option.some.inj hdefault).symm

/-- **Normal forms are equal exactly for the same origins if and only if the parts are distinct.** -/
theorem distinct_iff (hx : x.Valid) (hy : y.Valid) :
    (x.render = y.render ↔ x.Same y) ↔ x.Distinct y := by
  rw [render_inj hx hy]
  constructor
  · intro h
    have hhost : x.scheme = y.scheme → x.rest = y.rest → x.host = y.host := fun hscheme hrest =>
      (h.mp ⟨hscheme, hrest⟩).2.1
    refine ⟨?_, fun hscheme => ⟨?_, ?_⟩⟩
    · intro hsame
      have hrest := (h.mpr hsame).2
      obtain ⟨-, hshown⟩ | habsorb | habsorb := rest_cases hx hy hrest
      · exact hshown
      · exact absurd hsame.2.1 habsorb.host_ne
      · exact absurd hsame.2.1.symm habsorb.host_ne
    · intro habsorb
      exact habsorb.host_ne (hhost hscheme habsorb.rest_eq)
    · intro habsorb
      exact habsorb.host_ne (hhost hscheme habsorb.rest_eq.symm).symm
  · rintro ⟨hshown, habsorbs⟩
    constructor
    · rintro ⟨hscheme, hrest⟩
      obtain ⟨hhost, hshown⟩ | habsorb | habsorb := rest_cases hx hy hrest
      · refine ⟨hscheme, hhost, ?_⟩
        rw [number_eq, number_eq, hshown, hx.default_eq hy hscheme]
      · exact absurd habsorb (habsorbs hscheme).1
      · exact absurd habsorb (habsorbs hscheme).2
    · intro hsame
      refine ⟨hsame.1, ?_⟩
      rw [rest, rest, hsame.2.1, hshown hsame]

end Parts

end Origin

/-- **The normal form of an origin is a fixed point, and equal exactly for the same origins**, if and
only if its parts are settled, and distinct from the parts of the other origin. -/
theorem origin_canonical (a b : List Char) :
    ((∀ n, Origin.normaliseOrigin a = some n → Origin.normaliseOrigin n = some n) ∧
      ∀ x y, Origin.parse a = some x → Origin.parse b = some y →
        (Origin.normaliseOrigin a = Origin.normaliseOrigin b ↔ x.Same y)) ↔
    (∀ x, Origin.parse a = some x → x.Settled) ∧
      ∀ x y, Origin.parse a = some x → Origin.parse b = some y → x.Distinct y := by
  have hfixed : (∀ n, Origin.normaliseOrigin a = some n → Origin.normaliseOrigin n = some n) ↔
      ∀ x, Origin.parse a = some x → x.Settled := by
    simp only [Origin.normaliseOrigin, Option.map_eq_some_iff]
    constructor
    · intro h x hx
      exact (Origin.parse_spec hx).1.settled_iff.mp (Option.map_eq_some_iff.mpr (h _ ⟨x, hx, rfl⟩))
    · rintro h n ⟨x, hx, rfl⟩
      exact Option.map_eq_some_iff.mp ((Origin.parse_spec hx).1.settled_iff.mpr (h x hx))
  rw [hfixed]
  refine and_congr_right fun _ => forall₄_congr fun x y hx hy => ?_
  rw [← Origin.Parts.distinct_iff (Origin.parse_spec hx).1 (Origin.parse_spec hy).1,
    Origin.normaliseOrigin, Origin.normaliseOrigin, hx, hy, Option.map_some, Option.map_some,
    Option.some_inj]

/-- The same port in two spellings gives two normal forms; and a default port after a host that ends
in the default port is left out once more the second time. -/
theorem origin_spelling :
    (∃ x y, Origin.parse "http://a:080".toList = some x ∧ Origin.parse "HTTP://A".toList = some y ∧
      x.Same y ∧
      Origin.normaliseOrigin "http://a:080".toList ≠ Origin.normaliseOrigin "HTTP://A".toList) ∧
    ∃ n, Origin.normaliseOrigin "http://a:80:80".toList = some n ∧
      Origin.normaliseOrigin n ≠ some n :=
  ⟨⟨_, _, rfl, rfl, by decide, by decide⟩, _, rfl, by decide⟩

end KilnPrint
