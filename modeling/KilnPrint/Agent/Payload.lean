/-
Encoded payloads.

* `Encodes` — the text that stands for bytes, in each of the encodings;
* `needed` — the estimate that is taken of it before it is decoded, from the bytes;
* `length_le_of_decode` — what is decoded keeps the limit;
* `decode_payload` — **bytes within the limit are decoded if and only if their estimate stays
  within three of the limit**, in 64-bit arithmetic.

The base64 and hex decoders are a library's: they undo the encodings of `Lib.Base64`.
-/
import KilnPrint.Agent.Wire
import KilnPrint.Lib.Base64
import KilnPrint.Lib.Utf8
import KilnPrint.Protocols.CodePage

namespace KilnPrint

namespace DataEncoding

/-! ### Encodings -/

/-- A text stands for bytes. -/
def Encodes (encoding : DataEncoding) (bytes : Bytes) (data : String) : Prop :=
  match encoding with
  | base64 => data = .ofList (Base64.encode bytes)
  | hex => data = .ofList (Hex.encode bytes)
  | utf8 => Utf8.encode data.toList = bytes
  | latin1 => data.toList = bytes.map fun b => Char.ofNat b.toNat

/-- What the libraries document: their decoders undo the encodings. -/
structure Crates (serde : Serde) : Prop where
  base64 : ∀ bytes, serde.base64 (.ofList (Base64.encode bytes)) = .ok bytes
  hex : ∀ bytes, serde.hex (.ofList (Hex.encode bytes)) = .ok bytes

/-- The estimate of the text that stands for bytes: Latin-1 takes two bytes for each byte
above 0x7F. -/
def needed (encoding : DataEncoding) (bytes : Bytes) : ℕ :=
  match encoding with
  | base64 => (bytes.length + 2) / 3 * 3
  | hex | utf8 => bytes.length
  | latin1 => bytes.length + (bytes.filter fun b => 0x80 ≤ b).length

theorem encodeChar_byte (b : UInt8) :
    (String.utf8EncodeChar (Char.ofNat b.toNat)).length = if 0x80 ≤ b then 2 else 1 := by
  have hall : ∀ n < 256, (String.utf8EncodeChar (Char.ofNat n)).length = if 0x80 ≤ n then 2 else 1 := by
    decide +kernel
  rw [hall b.toNat b.toNat_lt]
  simp only [UInt8.le_iff_toNat_le]
  rfl

/-- **The estimate, from the bytes.** -/
theorem estimate_eq {encoding : DataEncoding} {bytes : Bytes} {data : String}
    (h : encoding.Encodes bytes data) : encoding.estimate data = encoding.needed bytes := by
  cases encoding with
  | base64 =>
    obtain rfl := h
    rw [estimate, Utf8.utf8ByteSize_eq, String.toList_ofList,
      Utf8.length_encode_ascii (Base64.encode_ascii bytes), Base64.length_encode, needed]
    omega
  | hex =>
    obtain rfl := h
    rw [estimate, Utf8.utf8ByteSize_eq, String.toList_ofList,
      Utf8.length_encode_ascii (Hex.encode_ascii bytes), Hex.length_encode, needed]
    omega
  | utf8 =>
    obtain rfl := h
    exact Utf8.utf8ByteSize_eq data
  | latin1 =>
    have htext : data.toList = bytes.map fun b => Char.ofNat b.toNat := h
    rw [estimate, Utf8.utf8ByteSize_eq, htext, needed]
    clear htext h
    -- bytes from 0x80 on take two bytes each as characters
    induction bytes with
    | nil => rfl
    | cons b rest ih =>
      have hcons : Utf8.encode ((b :: rest).map fun b => Char.ofNat b.toNat) =
          String.utf8EncodeChar (Char.ofNat b.toNat) ++
            Utf8.encode (rest.map fun b => Char.ofNat b.toNat) := rfl
      rw [hcons, List.length_append, ih, encodeChar_byte, List.length_cons]
      by_cases hhigh : 0x80 ≤ b
      · rw [if_pos hhigh, List.filter_cons_of_pos (by simpa using hhigh), List.length_cons]
        omega
      · rw [if_neg hhigh, List.filter_cons_of_neg (by simpa using hhigh)]
        omega

theorem latin1Byte_ofNat (b : UInt8) : latin1Byte (Char.ofNat b.toNat) = .ok b := by
  have hall : ∀ n < 256, (Char.ofNat n).toNat = n := by decide +kernel
  have hnat := hall b.toNat b.toNat_lt
  rw [latin1Byte, hnat, if_pos b.toNat_lt, UInt8.ofNat_toNat]

/-- **What stands for bytes is decoded to them**, limits apart. -/
theorem bytes_eq {serde : Serde} (hcrates : Crates serde) {encoding : DataEncoding} {bytes : Bytes}
    {data : String} (h : encoding.Encodes bytes data) : encoding.bytes serde data = .ok bytes := by
  cases encoding with
  | base64 =>
    obtain rfl := h
    rw [DataEncoding.bytes, hcrates.base64]
  | hex =>
    obtain rfl := h
    rw [DataEncoding.bytes, hcrates.hex]
  | utf8 =>
    obtain rfl := h
    rw [DataEncoding.bytes, Utf8.toList_toUTF8]
  | latin1 =>
    have htext : data.toList = bytes.map fun b => Char.ofNat b.toNat := h
    rw [DataEncoding.bytes, htext, mapM_eq_ok_iff, List.forall₂_map_left_iff]
    exact List.forall₂_same.mpr fun b _ => latin1Byte_ofNat b

/-! ### Limits -/

/-- **What is decoded keeps the limit.** -/
theorem length_le_of_decode {serde : Serde} {encoding : DataEncoding} {data : String} {max : ℕ}
    {bytes : Bytes} (h : encoding.decode serde data max = .ok bytes) : bytes.length ≤ max := by
  unfold decode at h
  dsimp only at h
  split_ifs at h
  obtain ⟨decoded, -, h⟩ := Except.bind_eq_ok.mp h
  split_ifs at h with hlimit
  rw [← Except.ok.inj h]
  exact Nat.le_of_not_lt hlimit

/-- Bytes within the limit are decoded exactly where their estimate passes. -/
theorem decode_eq_ok_iff {serde : Serde} (hcrates : Crates serde) {encoding : DataEncoding}
    {bytes : Bytes} {data : String} (h : encoding.Encodes bytes data) {max : ℕ}
    (hfits : bytes.length ≤ max) :
    encoding.decode serde data max = .ok bytes ↔ encoding.needed bytes ≤ (max + 3) % 2 ^ 64 := by
  unfold decode
  dsimp only
  rw [estimate_eq h, bytes_eq hcrates h]
  by_cases hestimate : encoding.needed bytes ≤ (max + 3) % 2 ^ 64
  · refine iff_of_true ?_ hestimate
    rw [if_neg (Nat.not_lt.mpr hestimate)]
    exact if_neg (Nat.not_lt.mpr hfits)
  · refine iff_of_false ?_ hestimate
    rw [if_pos (Nat.lt_of_not_le hestimate)]
    simp

end DataEncoding

/-- **Payloads.**  Decoding with a limit undoes the encoding of bytes that keep the limit, and
never yields more bytes than the limit, exactly where the estimate of the bytes is at most three
above the limit, the sum being of 64 bits. -/
theorem decode_payload {serde : Serde} (hcrates : DataEncoding.Crates serde)
    (encoding : DataEncoding) {bytes : Bytes} {data : String} (hdata : encoding.Encodes bytes data)
    (max : UInt64) :
    ((bytes.length ≤ max.toNat → encoding.decode serde data max.toNat = .ok bytes) ∧
      ∀ (input : String) (result : Bytes), encoding.decode serde input max.toNat = .ok result →
        result.length ≤ max.toNat) ↔
    (bytes.length ≤ max.toNat → encoding.needed bytes ≤ (max.toNat + 3) % 2 ^ 64) := by
  constructor
  · rintro ⟨hdecode, -⟩ hfits
    exact (DataEncoding.decode_eq_ok_iff hcrates hdata hfits).mp (hdecode hfits)
  · intro hneeded
    refine ⟨fun hfits => ?_, fun _ _ => DataEncoding.length_le_of_decode⟩
    exact (DataEncoding.decode_eq_ok_iff hcrates hdata hfits).mpr (hneeded hfits)

/-- The libraries' decoders, and no others. -/
def payloadSerde : Serde where
  printer _ := .error ""
  generic _ := .error ""
  raw _ := .error ""
  text _ := .error ""
  html _ := .error ""
  pdf _ := .error ""
  image _ := .error ""
  label _ := .error ""
  receipt _ := .error ""
  dotMatrix _ := .error ""
  jobsList _ := .error ""
  jobId _ := .error ""
  base64 data := (Base64.decode data.toList).elim (.error "invalid base64") .ok
  hex data := (Hex.decode data.toList).elim (.error "invalid hex") .ok
  uuid _ := none

theorem crates_payloadSerde : DataEncoding.Crates payloadSerde where
  base64 bytes := by
    show (Base64.decode (String.ofList (Base64.encode bytes)).toList).elim _ _ = _
    rw [String.toList_ofList, Base64.decode_encode]
    rfl
  hex bytes := by
    show (Hex.decode (String.ofList (Hex.encode bytes)).toList).elim _ _ = _
    rw [String.toList_ofList, Hex.decode_encode]
    rfl

theorem decode_payload_hello :
    DataEncoding.base64.decode payloadSerde (.ofList (Base64.encode [0x68, 0xE9, 0x6C]))
      (3 : UInt64).toNat = .ok [0x68, 0xE9, 0x6C] :=
  have hencodes : DataEncoding.base64.Encodes [0x68, 0xE9, 0x6C]
      (.ofList (Base64.encode [0x68, 0xE9, 0x6C])) := rfl
  ((decode_payload crates_payloadSerde .base64 hencodes 3).mpr fun _ => by decide).1 (by decide)

/-- **Four accented letters do not fit a limit of four bytes.** -/
theorem accents_refused : DataEncoding.latin1.Encodes [0xE9, 0xE9, 0xE9, 0xE9] "éééé" ∧
    DataEncoding.latin1.decode payloadSerde "éééé" 4 ≠ .ok [0xE9, 0xE9, 0xE9, 0xE9] := by
  have hencodes : DataEncoding.latin1.Encodes [0xE9, 0xE9, 0xE9, 0xE9] "éééé" := by
    show "éééé".toList = _
    decide
  refine ⟨hencodes, fun h => ?_⟩
  have hneeded := (DataEncoding.decode_eq_ok_iff crates_payloadSerde hencodes (by decide)).mp h
  exact absurd hneeded (by decide)

end KilnPrint
