/-
Code pages, read back.

* `CodePage.decode` — the text of a code page's bytes;
* `windows1252` — the encoding of that name, which is no DOS page;
* `decode_of_forall₂` — **what an encoder of a page writes reads back**;
* `Printable`, `Uncontrolled` — texts and bytes without control characters;
* `uncontrolled_of_forall₂` — a printable text is written without control bytes.
-/
import KilnPrint.Lib.Utf8
import KilnPrint.Renderers.Text
import Mathlib.Data.List.Forall2

namespace KilnPrint

/-! ### Traversals -/

theorem mapM_eq_ok_iff {ε α β : Type} {f : α → Except ε β} {l : List α} {bs : List β} :
    l.mapM f = .ok bs ↔ List.Forall₂ (fun a b => f a = .ok b) l bs := by
  induction l generalizing bs with
  | nil =>
    rw [List.mapM_nil, List.forall₂_nil_left_iff]
    exact ⟨fun h => (Except.ok.inj h).symm, fun h => congrArg Except.ok h.symm⟩
  | cons a l ih =>
    rw [List.mapM_cons, Except.bind_eq_ok]
    constructor
    · rintro ⟨b, hb, h⟩
      obtain ⟨rest, hrest, h⟩ := Except.bind_eq_ok.mp h
      obtain rfl := Except.ok.inj h
      exact .cons hb (ih.mp hrest)
    · rintro (_ | ⟨hb, hrest⟩)
      exact ⟨_, hb, Except.bind_eq_ok.mpr ⟨_, ih.mpr hrest, rfl⟩⟩

theorem forall_of_forall₂ {α β : Type} {R : α → β → Prop} {P : β → Prop} {l : List α} {bs : List β}
    (h : List.Forall₂ R l bs) (himp : ∀ a b, R a b → P b) : ∀ b ∈ bs, P b := by
  induction h with
  | nil => simp
  | cons hab _ ih =>
    intro b hb
    rcases List.mem_cons.mp hb with rfl | hb
    · exact himp _ _ hab
    · exact ih b hb

/-- What each member of two related lists has in common, as a third list. -/
theorem exists_forall₂ {α β γ : Type} {R : α → β → Prop} {S : α → γ → Prop} {T : β → γ → Prop}
    {l : List α} {bs : List β} (h : List.Forall₂ R l bs)
    (himp : ∀ a ∈ l, ∀ b, R a b → ∃ c, S a c ∧ T b c) :
    ∃ cs, List.Forall₂ S l cs ∧ List.Forall₂ T bs cs := by
  induction h with
  | nil => exact ⟨[], .nil, .nil⟩
  | cons hab _ ih =>
    obtain ⟨c, hs, ht⟩ := himp _ List.mem_cons_self _ hab
    obtain ⟨cs, hss, hts⟩ := ih fun a ha => himp a (List.mem_cons_of_mem _ ha)
    exact ⟨c :: cs, .cons hs hss, .cons ht hts⟩

theorem forall₂_exists {α β : Type} {R : α → β → Prop} {l : List α} {bs : List β}
    (h : List.Forall₂ R l bs) : ∀ a ∈ l, ∃ b, R a b := by
  induction h with
  | nil => exact fun a ha => absurd ha List.not_mem_nil
  | cons hab _ ih => exact List.forall_mem_cons.mpr ⟨⟨_, hab⟩, ih⟩

theorem forall₂_compose {α β γ : Type} {R : α → β → Prop} {S : α → γ → Prop} {T : β → γ → Prop}
    {l : List α} {bs : List β} {cs : List γ} (h : List.Forall₂ R l bs) (h' : List.Forall₂ S l cs)
    (himp : ∀ a b c, R a b → S a c → T b c) : List.Forall₂ T bs cs := by
  induction h generalizing cs with
  | nil => rw [List.forall₂_nil_left_iff.mp h']; exact .nil
  | cons hab _ ih =>
    obtain ⟨c, rest, hac, hrest, rfl⟩ := List.forall₂_cons_left_iff.mp h'
    exact .cons (himp _ _ _ hab hac) (ih hrest)

theorem forall₂_forall_left {α β : Type} {R S : α → β → Prop} {P : α → Prop} {l : List α}
    {bs : List β} (h : List.Forall₂ R l bs) (h' : List.Forall₂ S l bs)
    (himp : ∀ a b, R a b → S a b → P a) : ∀ a ∈ l, P a := by
  induction h with
  | nil => exact fun a ha => absurd ha List.not_mem_nil
  | cons hab _ ih =>
    cases h' with
    | cons hab' h' => exact List.forall_mem_cons.mpr ⟨himp _ _ hab hab', ih h'⟩

/-! ### Texts without control characters -/

def Printable (text : List Char) : Prop := ∀ c ∈ text, isControl c = false

def Uncontrolled (bytes : Bytes) : Prop := ∀ b ∈ bytes, 0x20 ≤ b.toNat

instance (text : List Char) : Decidable (Printable text) :=
  decidable_of_iff (text.all fun c => !isControl c) (by simp [Printable])

theorem printable_of_ascii {text : List Char} (h : ∀ c ∈ text, 0x20 ≤ c.toNat ∧ c.toNat < 0x7F) :
    Printable text := by
  intro c hc
  have := h c hc
  simp only [isControl, Bool.or_eq_false_iff, Bool.and_eq_false_iff, decide_eq_false_iff_not]
  omega

theorem printable_append {a b : List Char} :
    Printable (a ++ b) ↔ Printable a ∧ Printable b := List.forall_mem_append

theorem uncontrolled_append {a b : Bytes} :
    Uncontrolled (a ++ b) ↔ Uncontrolled a ∧ Uncontrolled b := List.forall_mem_append

theorem le_of_printable {c : Char} (h : isControl c = false) : 0x20 ≤ c.toNat := by
  simp only [isControl, Bool.or_eq_false_iff, decide_eq_false_iff_not] at h
  omega

theorem uncontrolled_utf8 {text : List Char} (h : Printable text) :
    Uncontrolled (Utf8.encode text) := by
  intro b hb
  obtain ⟨c, hc, hb⟩ := List.mem_flatMap.mp hb
  have hle := le_of_printable (h c hc)
  by_cases hascii : c.toNat < 128
  · rw [Utf8.encodeChar_ascii hascii, List.mem_singleton] at hb
    rw [hb, Utf8.toNat_ofNat (by omega)]
    exact hle
  · have := Utf8.le_of_mem_encodeChar (by omega) hb
    omega

/-! ### Code pages -/

namespace CodePage

/-- A character's byte. -/
def encodeChar (table : List Char) (c : Char) : Option UInt8 :=
  if c.toNat < 0x80 then some (UInt8.ofNat c.toNat)
  else (table.idxOf? c).map fun i => UInt8.ofNat (0x80 + i)

/-- A byte's character. -/
def decodeByte (table : List Char) (b : UInt8) : Option Char :=
  if b.toNat < 0x80 then some (Char.ofNat b.toNat) else table[b.toNat - 0x80]?

def decode (table : List Char) (bytes : Bytes) : Option (List Char) := bytes.mapM (decodeByte table)

variable {table : List Char}

theorem decodeByte_encodeChar (htable : table.length ≤ 128) {c : Char} {b : UInt8}
    (h : encodeChar table c = some b) : decodeByte table b = some c := by
  unfold encodeChar at h
  split at h
  · next hc =>
    obtain rfl := Option.some.inj h
    have hnat : (UInt8.ofNat c.toNat).toNat = c.toNat := Utf8.toNat_ofNat (by omega)
    rw [decodeByte, hnat, if_pos hc, Char.ofNat_toNat]
  · obtain ⟨i, hi, rfl⟩ := Option.map_eq_some_iff.mp h
    obtain ⟨hlt, hget, -⟩ := List.idxOf?_eq_some_iff.mp hi
    have hnat : (UInt8.ofNat (0x80 + i)).toNat = 0x80 + i := Utf8.toNat_ofNat (by omega)
    rw [decodeByte, hnat, if_neg (by omega), Nat.add_sub_cancel_left, List.getElem?_eq_getElem hlt,
      hget]

/-- A character that is no control character has no control byte. -/
theorem le_of_encodeChar (htable : table.length ≤ 128) {c : Char} {b : UInt8}
    (hc : 0x20 ≤ c.toNat) (h : encodeChar table c = some b) : 0x20 ≤ b.toNat := by
  unfold encodeChar at h
  split at h
  · obtain rfl := Option.some.inj h
    rw [Utf8.toNat_ofNat (by omega)]
    exact hc
  · obtain ⟨i, hi, rfl⟩ := Option.map_eq_some_iff.mp h
    have hlt := (List.idxOf?_eq_some_iff.mp hi).1
    rw [Utf8.toNat_ofNat (by omega)]
    omega

/-- What a DOS page writes. -/
theorem dos_eq_ok {name : String} {text : List Char} {bytes : Bytes} :
    (TextEncoder.dos table name).encode text = .ok bytes ↔
      List.Forall₂ (fun c b => encodeChar table c = some b) text bytes := by
  show text.mapM _ = _ ↔ _
  rw [mapM_eq_ok_iff]
  refine iff_of_eq (congrArg (List.Forall₂ · text bytes) (funext₂ fun c b => propext ?_))
  unfold encodeChar
  split
  · simp
  · cases table.idxOf? c <;> simp

/-- **What is written reads back.** -/
theorem decode_of_forall₂ (htable : table.length ≤ 128) {text : List Char} {bytes : Bytes}
    (h : List.Forall₂ (fun c b => encodeChar table c = some b) text bytes) :
    decode table bytes = some text := by
  induction h with
  | nil => rfl
  | cons hb _ ih =>
    rw [decode, List.mapM_cons, decodeByte_encodeChar htable hb]
    rw [decode] at ih
    rw [ih]
    rfl

theorem uncontrolled_of_forall₂ (htable : table.length ≤ 128) {text : List Char} {bytes : Bytes}
    (h : List.Forall₂ (fun c b => encodeChar table c = some b) text bytes)
    (htext : Printable text) : Uncontrolled bytes := by
  induction h with
  | nil => exact fun b hb => absurd hb List.not_mem_nil
  | cons hb _ ih =>
    intro b' hb'
    rcases List.mem_cons.mp hb' with rfl | hb'
    · exact le_of_encodeChar htable (le_of_printable (htext _ List.mem_cons_self)) hb
    · exact ih (fun c hc => htext c (List.mem_cons_of_mem _ hc)) b' hb'

theorem decode_append {a b : Bytes} {s t : List Char} (ha : decode table a = some s)
    (hb : decode table b = some t) : decode table (a ++ b) = some (s ++ t) := by
  rw [decode] at ha hb ⊢
  rw [List.mapM_append, ha, hb]
  rfl

/-- ASCII reads back as itself. -/
theorem decode_ascii {text : List Char} (h : ∀ c ∈ text, c.toNat < 128) :
    decode table (Utf8.encode text) = some text := by
  induction text with
  | nil => rfl
  | cons c rest ih =>
    have hc := h c List.mem_cons_self
    have hbyte : decodeByte table (UInt8.ofNat c.toNat) = some c := by
      rw [decodeByte, Utf8.toNat_ofNat (by omega), if_pos hc, Char.ofNat_toNat]
    have hrest := ih fun d hd => h d (List.mem_cons_of_mem _ hd)
    rw [← List.singleton_append, Utf8.encode_append]
    refine decode_append ?_ hrest
    rw [Utf8.encode, List.flatMap_singleton, Utf8.encodeChar_ascii hc, decode, List.mapM_cons, hbyte]
    rfl

end CodePage

theorem length_cp437High : cp437High.length ≤ 128 := by
  unfold cp437High
  simp only [String.length_toList, String.length_append]
  decide +kernel

theorem length_cp850High : cp850High.length ≤ 128 := by
  unfold cp850High
  simp only [String.length_toList, String.length_append]
  decide +kernel

theorem length_cp858High : cp858High.length ≤ 128 := by
  rw [cp858High, List.length_set]
  exact length_cp850High

/-- The default label. -/
theorem TextEncoder.forLabel_437 (encodings : Whatwgs) :
    forLabel encodings "ibm437" = .ok (.dos cp437High "IBM437") := by
  have hname : String.ofList ((trimWhitespace "ibm437".toList).map Char.toLower) = "ibm437" := by
    decide
  unfold forLabel
  rw [hname]
  rfl

/-! ### Windows-1252 -/

/-- The upper half of windows-1252. -/
def windows1252High : List Char :=
  ("€\u0081‚ƒ„…†‡ˆ‰Š‹Œ\u008dŽ\u008f" ++ "\u0090‘’“”•–—˜™š›œ\u009džŸ").toList ++
    (List.range 96).map fun i => Char.ofNat (0xA0 + i)

/-- A single-byte encoding of the WHATWG set.  What it cannot represent becomes a numeric
character reference. -/
def Whatwg.singleByte (name : String) (table : List Char) : Whatwg where
  name := name
  encode text :=
    (text.flatMap fun c =>
        match CodePage.encodeChar table c with
        | some b => [b]
        | none => Utf8.encode ("&#".toList ++ Nat.toDigits 10 c.toNat ++ [';']),
      text.any fun c => (CodePage.encodeChar table c).isNone)

/-- What such an encoding writes of a text it represents. -/
theorem Whatwg.encode_singleByte {name : String} {table : List Char} {text : List Char}
    {bytes : Bytes} :
    (Whatwg.singleByte name table).encode text = (bytes, false) ↔
      List.Forall₂ (fun c b => CodePage.encodeChar table c = some b) text bytes := by
  induction text generalizing bytes with
  | nil =>
    rw [List.forall₂_nil_left_iff]
    exact ⟨fun h => (Prod.ext_iff.mp h).1.symm, fun h => by rw [h]; rfl⟩
  | cons c rest ih =>
    simp only [singleByte, List.flatMap_cons, List.any_cons, Prod.mk.injEq,
      Bool.or_eq_false_iff] at ih ⊢
    cases hc : CodePage.encodeChar table c with
    | none =>
      refine ⟨by simp, ?_⟩
      rintro (_ | ⟨hb, -⟩)
      cases hc.symm.trans hb
    | some b =>
      constructor
      · rintro ⟨rfl, -, hrest⟩
        exact .cons hc (ih.mp ⟨rfl, hrest⟩)
      · rintro (_ | ⟨hb, hrest⟩)
        obtain ⟨rfl, hnone⟩ := ih.mpr hrest
        obtain rfl := Option.some.inj (hc.symm.trans hb)
        exact ⟨rfl, rfl, hnone⟩

def windows1252 : Whatwg := .singleByte "windows-1252" windows1252High

/-- The library with one encoding. -/
def onlyWindows1252 : Whatwgs := fun name => if name = "windows-1252" then some windows1252 else none

theorem TextEncoder.forLabel_1252 {encodings : Whatwgs} (h : encodings "windows-1252" = some windows1252) :
    forLabel encodings "windows-1252" = .ok (.whatwg windows1252) := by
  have hname : String.ofList ((trimWhitespace "windows-1252".toList).map Char.toLower) =
      "windows-1252" := by decide
  unfold forLabel
  rw [hname]
  simp [h]

theorem length_windows1252High : windows1252High.length ≤ 128 := by
  unfold windows1252High
  rw [List.length_append, List.length_map, List.length_range]
  simp only [String.length_toList, String.length_append]
  decide +kernel

/-- An encoding of the set fails where it had to substitute a character. -/
theorem whatwg_eq_ok {w : Whatwg} {text : List Char} {bytes : Bytes} :
    (TextEncoder.whatwg w).encode text = .ok bytes ↔ w.encode text = (bytes, false) := by
  show (if (w.encode text).2 = true then Except.error _ else Except.ok (w.encode text).1) = _ ↔ _
  rw [Prod.ext_iff]
  split
  · next h => simp [h]
  · next h => simp [h]

/-- What a single-byte encoding writes. -/
theorem singleByte_eq_ok {name : String} {table : List Char} {text : List Char} {bytes : Bytes} :
    (TextEncoder.whatwg (.singleByte name table)).encode text = .ok bytes ↔
      List.Forall₂ (fun c b => CodePage.encodeChar table c = some b) text bytes :=
  whatwg_eq_ok.trans Whatwg.encode_singleByte

end KilnPrint
