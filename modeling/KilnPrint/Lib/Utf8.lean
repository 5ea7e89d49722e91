/-
The UTF-8 form of a text.

* `encodeChar_ascii` — an ASCII character is its own byte;
* `le_of_mem_encodeChar` — the bytes of every other character are 0x80 and above;
* `mem_encode_iff` — so an ASCII byte is found in a text exactly where its character is;
* `decode`, `decode_encode` — the text of bytes, and the round trip;
* `toList_toUTF8`, `utf8ByteSize_eq` — the bytes of a string, and how many they are.
-/
import Mathlib.Algebra.Ring.Nat
import Mathlib.Data.List.Basic
import Mathlib.Tactic.Common

namespace Utf8

/-- The bytes of a text. -/
def encode (text : List Char) : List UInt8 := text.flatMap String.utf8EncodeChar

theorem encode_append (a b : List Char) : encode (a ++ b) = encode a ++ encode b :=
  List.flatMap_append

theorem encode_flatten (l : List (List Char)) : encode l.flatten = (l.map encode).flatten := by
  rw [encode, List.flatMap_def, List.map_flatten, List.flatten_flatten, List.map_map]
  rfl

/-- A fact about each character of a text, checked one by one. -/
theorem forall_of_all {α : Type} {p : α → Prop} [DecidablePred p] {l : List α}
    (h : l.all (fun a => decide (p a)) = true) : ∀ a ∈ l, p a :=
  fun a ha => of_decide_eq_true (List.all_eq_true.mp h a ha)

theorem toNat_ofNat {n : ℕ} (h : n < 256) : (UInt8.ofNat n).toNat = n := by
  rw [UInt8.toNat_ofNat']
  exact Nat.mod_eq_of_lt h

theorem encodeChar_ascii {c : Char} (h : c.toNat < 128) :
    String.utf8EncodeChar c = [UInt8.ofNat c.toNat] := by
  have hle : c.val.toNat ≤ 0x7f := Nat.le_of_lt_succ h
  simp only [String.utf8EncodeChar, if_pos hle, Char.toNat]

/-- **Only ASCII characters have bytes below 0x80.** -/
theorem le_of_mem_encodeChar {c : Char} (h : 128 ≤ c.toNat) {b : UInt8}
    (hb : b ∈ String.utf8EncodeChar c) : 128 ≤ b.toNat := by
  have hgt : ¬ c.val.toNat ≤ 0x7f := by
    have hc : c.toNat = c.val.toNat := rfl
    omega
  -- every byte is a remainder and a marker
  have hmarker : ∀ r m : ℕ, r + m < 256 → 128 ≤ m → b = UInt8.ofNat (r + m) → 128 ≤ b.toNat := by
    intro r m hlt hm hb
    rw [hb, toNat_ofNat hlt]
    omega
  simp only [String.utf8EncodeChar, if_neg hgt] at hb
  split at hb
  · simp only [List.mem_cons, List.not_mem_nil, or_false] at hb
    rcases hb with hb | hb
    all_goals exact hmarker _ _ (by omega) (by omega) hb
  · split at hb
    · simp only [List.mem_cons, List.not_mem_nil, or_false] at hb
      rcases hb with hb | hb | hb
      all_goals exact hmarker _ _ (by omega) (by omega) hb
    · simp only [List.mem_cons, List.not_mem_nil, or_false] at hb
      rcases hb with hb | hb | hb | hb
      all_goals exact hmarker _ _ (by omega) (by omega) hb

/-- A byte below 0x80 of a character is the character. -/
theorem mem_encodeChar_iff {c d : Char} (hd : d.toNat < 128) :
    UInt8.ofNat d.toNat ∈ String.utf8EncodeChar c ↔ c = d := by
  constructor
  · intro hmem
    have hbyte : (UInt8.ofNat d.toNat).toNat = d.toNat := toNat_ofNat (by omega)
    by_cases hc : c.toNat < 128
    · rw [encodeChar_ascii hc, List.mem_singleton] at hmem
      have hnat := congrArg UInt8.toNat hmem
      rw [hbyte, toNat_ofNat (by omega)] at hnat
      exact Char.toNat_inj.mp hnat.symm
    · have hle := le_of_mem_encodeChar (by omega) hmem
      omega
  · rintro rfl
    rw [encodeChar_ascii hd]
    exact List.mem_singleton.mpr rfl

/-- **An ASCII byte is in a text exactly where its character is.** -/
theorem mem_encode_iff (text : List Char) {d : Char} (hd : d.toNat < 128) :
    UInt8.ofNat d.toNat ∈ encode text ↔ d ∈ text := by
  rw [encode, List.mem_flatMap]
  constructor
  · rintro ⟨c, hc, hmem⟩
    rw [← (mem_encodeChar_iff hd).mp hmem]
    exact hc
  · exact fun h => ⟨d, h, (mem_encodeChar_iff hd).mpr rfl⟩

/-- The text of bytes, where they are well formed. -/
def decode (bytes : List UInt8) : Option (List Char) :=
  bytes.toByteArray.utf8Decode?.map Array.toList

theorem decode_encode (text : List Char) : decode (encode text) = some text := by
  have hbytes : (encode text).toByteArray = text.utf8Encode := rfl
  rw [decode, hbytes, List.utf8Decode?_utf8Encode]
  rfl

/-! ### Strings -/

theorem toListLoop (bytes : ByteArray) (i : ℕ) (before : List UInt8) :
    ByteArray.toList.loop bytes i before = before.reverse ++ bytes.data.toList.drop i := by
  fun_induction ByteArray.toList.loop bytes i before with
  | case1 i before h ih =>
    have hlt : i < bytes.data.toList.length := by simpa using h
    have hget : bytes.get! i = bytes.data.toList[i] := by
      show bytes.data[i]! = _
      simp [getElem!_pos, h]
    rw [ih, List.reverse_cons, hget, List.append_assoc, List.singleton_append,
      List.drop_eq_getElem_cons hlt]
  | case2 i before h =>
    have hle : bytes.data.toList.length ≤ i := by simpa using h
    rw [List.drop_of_length_le hle, List.append_nil]

theorem toByteArray_eq (s : String) : s.toByteArray = (encode s.toList).toByteArray :=
  String.utf8Encode_toList.symm

theorem toList_toUTF8 (s : String) : s.toUTF8.toList = encode s.toList := by
  show s.toByteArray.toList = _
  rw [toByteArray_eq, ByteArray.toList, toListLoop]
  simp

theorem utf8ByteSize_eq (s : String) : s.utf8ByteSize = (encode s.toList).length := by
  rw [← String.size_toByteArray, toByteArray_eq, List.size_toByteArray]

/-- A text of ASCII has a byte for each character. -/
theorem length_encode_ascii {text : List Char} (h : ∀ c ∈ text, c.toNat < 128) :
    (encode text).length = text.length := by
  induction text with
  | nil => rfl
  | cons c rest ih =>
    rw [List.forall_mem_cons] at h
    have hcons : encode (c :: rest) = String.utf8EncodeChar c ++ encode rest := rfl
    rw [hcons, encodeChar_ascii h.1, List.length_append, ih h.2, List.length_singleton,
      List.length_cons, Nat.add_comm]

end Utf8
