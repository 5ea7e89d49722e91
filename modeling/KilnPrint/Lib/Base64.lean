/-
Bytes as text, in base64 and in hex.

* `Base64.encode`, `Base64.decode` — standard base64 with padding; the decoder takes the
  canonical form only;
* `Hex.encode`, `Hex.decode` — two digits for a byte; the decoder takes digits of either case;
* `decode_encode` — the round trips;
* `length_encode`, `encode_ascii` — the size of the text.
-/
import Mathlib.Data.List.Basic
import Mathlib.Tactic.Common

namespace Base64

/-! ### Base64 -/

/-- The character of a number below 64. -/
def digit (n : ℕ) : Char :=
  if n < 26 then Char.ofNat (65 + n)
  else if n < 52 then Char.ofNat (71 + n)
  else if n < 62 then Char.ofNat (n - 4)
  else if n = 62 then '+'
  else '/'

def value (c : Char) : Option ℕ :=
  if 65 ≤ c.toNat ∧ c.toNat ≤ 90 then some (c.toNat - 65)
  else if 97 ≤ c.toNat ∧ c.toNat ≤ 122 then some (c.toNat - 71)
  else if 48 ≤ c.toNat ∧ c.toNat ≤ 57 then some (c.toNat + 4)
  else if c = '+' then some 62
  else if c = '/' then some 63
  else none

/-- Three bytes are four digits; one or two bytes at the end are padded. -/
def encode : List UInt8 → List Char
  | a :: b :: c :: rest =>
    let n := a.toNat * 65536 + b.toNat * 256 + c.toNat
    digit (n / 262144) :: digit (n / 4096 % 64) :: digit (n / 64 % 64) :: digit (n % 64) ::
      encode rest
  | [a, b] =>
    let n := a.toNat * 1024 + b.toNat * 4
    [digit (n / 4096), digit (n / 64 % 64), digit (n % 64), '=']
  | [a] =>
    let n := a.toNat * 16
    [digit (n / 64), digit (n % 64), '=', '=']
  | [] => []

/-- The bytes of the last four characters. -/
def decodePadded (a b c : Char) : Option (List UInt8) :=
  match value a, value b with
  | some a, some b =>
    if c = '=' then
      let n := a * 64 + b
      if n % 16 = 0 then some [UInt8.ofNat (n / 16)] else none
    else
      match value c with
      | some c =>
        let n := (a * 64 + b) * 64 + c
        if n % 4 = 0 then some [UInt8.ofNat (n / 1024), UInt8.ofNat (n / 4 % 256)] else none
      | none => none
  | _, _ => none

def decode : List Char → Option (List UInt8)
  | [] => some []
  | a :: b :: c :: d :: rest =>
    if d = '=' then if rest = [] then decodePadded a b c else none
    else
      match value a, value b, value c, value d with
      | some a, some b, some c, some d =>
        let n := ((a * 64 + b) * 64 + c) * 64 + d
        (decode rest).map fun bytes =>
          UInt8.ofNat (n / 65536) :: UInt8.ofNat (n / 256 % 256) :: UInt8.ofNat (n % 256) :: bytes
      | _, _, _, _ => none
  | _ => none

theorem value_digit {n : ℕ} (h : n < 64) : value (digit n) = some n := by
  have hall : ∀ m < 64, value (digit m) = some m := by decide
  exact hall n h

theorem digit_ne_pad {n : ℕ} (h : n < 64) : digit n ≠ '=' := by
  have hall : ∀ m < 64, digit m ≠ '=' := by decide
  exact hall n h

theorem digit_ascii (n : ℕ) (h : n < 64) : (digit n).toNat < 128 := by
  have hall : ∀ m < 64, (digit m).toNat < 128 := by decide
  exact hall n h

theorem ofNat_eq {n : ℕ} {b : UInt8} (h : n = b.toNat) : UInt8.ofNat n = b := by
  rw [h, UInt8.ofNat_toNat]

/-- **The round trip.** -/
theorem decode_encode (bytes : List UInt8) : decode (encode bytes) = some bytes := by
  induction bytes using encode.induct with
  | case1 a b c rest ih =>
    have ha := a.toNat_lt
    have hb := b.toNat_lt
    have hc := c.toNat_lt
    rw [encode]
    generalize hn : a.toNat * 65536 + b.toNat * 256 + c.toNat = n
    have hsum : ((n / 262144 * 64 + n / 4096 % 64) * 64 + n / 64 % 64) * 64 + n % 64 = n := by omega
    rw [decode, if_neg (digit_ne_pad (by omega)), value_digit (by omega), value_digit (by omega),
      value_digit (by omega), value_digit (by omega), ih]
    dsimp only [Option.map_some]
    rw [hsum, ofNat_eq (b := a) (by omega), ofNat_eq (b := b) (by omega),
      ofNat_eq (b := c) (by omega)]
  | case2 a b =>
    have ha := a.toNat_lt
    have hb := b.toNat_lt
    rw [encode]
    generalize hn : a.toNat * 1024 + b.toNat * 4 = n
    have hsum : (n / 4096 * 64 + n / 64 % 64) * 64 + n % 64 = n := by omega
    rw [decode, if_pos rfl, if_pos rfl, decodePadded, value_digit (by omega),
      value_digit (by omega)]
    dsimp only
    rw [if_neg (digit_ne_pad (by omega)), value_digit (by omega)]
    dsimp only
    rw [hsum, if_pos (by omega), ofNat_eq (b := a) (by omega), ofNat_eq (b := b) (by omega)]
  | case3 a =>
    have ha := a.toNat_lt
    rw [encode]
    generalize hn : a.toNat * 16 = n
    have hsum : n / 64 * 64 + n % 64 = n := by omega
    rw [decode, if_pos rfl, if_pos rfl, decodePadded, value_digit (by omega),
      value_digit (by omega)]
    dsimp only
    rw [if_pos rfl, hsum, if_pos (by omega), ofNat_eq (b := a) (by omega)]
  | case4 => rfl

theorem length_encode (bytes : List UInt8) : (encode bytes).length = (bytes.length + 2) / 3 * 4 := by
  induction bytes using encode.induct with
  | case1 a b c rest ih =>
    rw [encode]
    simp only [List.length_cons, ih]
    omega
  | case2 a b => simp [encode]
  | case3 a => simp [encode]
  | case4 => rfl

theorem encode_ascii (bytes : List UInt8) : ∀ c ∈ encode bytes, c.toNat < 128 := by
  induction bytes using encode.induct with
  | case1 a b c rest ih =>
    have ha := a.toNat_lt
    have hb := b.toNat_lt
    have hc := c.toNat_lt
    rw [encode]
    simp only [List.forall_mem_cons]
    exact ⟨digit_ascii _ (by omega), digit_ascii _ (by omega), digit_ascii _ (by omega),
      digit_ascii _ (by omega), ih⟩
  | case2 a b =>
    have ha := a.toNat_lt
    have hb := b.toNat_lt
    rw [encode]
    simp only [List.forall_mem_cons]
    exact ⟨digit_ascii _ (by omega), digit_ascii _ (by omega), digit_ascii _ (by omega), by decide,
      fun _ h => absurd h List.not_mem_nil⟩
  | case3 a =>
    have ha := a.toNat_lt
    rw [encode]
    simp only [List.forall_mem_cons]
    exact ⟨digit_ascii _ (by omega), digit_ascii _ (by omega), by decide, by decide,
      fun _ h => absurd h List.not_mem_nil⟩
  | case4 => exact fun _ h => absurd h List.not_mem_nil

end Base64

namespace Hex

/-! ### Hex -/

/-- The lower-case digit of a number below 16. -/
def digit (n : ℕ) : Char := if n < 10 then Char.ofNat (48 + n) else Char.ofNat (87 + n)

def value (c : Char) : Option ℕ :=
  if 48 ≤ c.toNat ∧ c.toNat ≤ 57 then some (c.toNat - 48)
  else if 97 ≤ c.toNat ∧ c.toNat ≤ 102 then some (c.toNat - 87)
  else if 65 ≤ c.toNat ∧ c.toNat ≤ 70 then some (c.toNat - 55)
  else none

def encode : List UInt8 → List Char
  | b :: rest => digit (b.toNat / 16) :: digit (b.toNat % 16) :: encode rest
  | [] => []

def decode : List Char → Option (List UInt8)
  | [] => some []
  | [_] => none
  | high :: low :: rest =>
    match value high, value low with
    | some high, some low => (decode rest).map (UInt8.ofNat (high * 16 + low) :: ·)
    | _, _ => none

theorem value_digit {n : ℕ} (h : n < 16) : value (digit n) = some n := by
  have hall : ∀ m < 16, value (digit m) = some m := by decide
  exact hall n h

theorem digit_ascii {n : ℕ} (h : n < 16) : (digit n).toNat < 128 := by
  have hall : ∀ m < 16, (digit m).toNat < 128 := by decide
  exact hall n h

/-- **The round trip.** -/
theorem decode_encode (bytes : List UInt8) : decode (encode bytes) = some bytes := by
  induction bytes with
  | nil => rfl
  | cons b rest ih =>
    have hb := b.toNat_lt
    have hsum : b.toNat / 16 * 16 + b.toNat % 16 = b.toNat := by omega
    rw [encode, decode, value_digit (by omega), value_digit (by omega)]
    dsimp only
    rw [ih, hsum, UInt8.ofNat_toNat]
    rfl

theorem length_encode (bytes : List UInt8) : (encode bytes).length = bytes.length * 2 := by
  induction bytes with
  | nil => rfl
  | cons b rest ih =>
    rw [encode]
    simp only [List.length_cons, ih]
    omega

theorem encode_ascii (bytes : List UInt8) : ∀ c ∈ encode bytes, c.toNat < 128 := by
  induction bytes with
  | nil => exact fun _ h => absurd h List.not_mem_nil
  | cons b rest ih =>
    have hb := b.toNat_lt
    rw [encode]
    simp only [List.forall_mem_cons]
    exact ⟨digit_ascii (by omega), digit_ascii (by omega), ih⟩

end Hex
