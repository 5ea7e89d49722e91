/-
The resolution that an image file states.

* `metadataDpi?` — **the scan for it**, in PNG chunks, a JFIF header or a BMP header, which stops
  where an index or a sum is out of range;
* `ChunkAt`, `Walk`, `PhysAt` — chunks of a file, walking from one to the next by their declared
  lengths, and the resolution that one states;
* `pngDpi?_spec` — what the scan of the chunks finds;
* `png_resolution` — **the scan ends, stays in range, and returns the resolution of the first pHYs
  chunk that the walk reaches**.

Resolutions are exact, where the code rounds them to single precision.
-/
import Mathlib.Data.Rat.Defs
import Mathlib.Data.Rat.Floor
import KilnPrint.Model.Document

namespace KilnPrint

namespace Resolution

inductive ImageFormat
  | png
  | jpeg
  | bmp
  | tiff
  | gif
  deriving DecidableEq

/-- `data.get(start..stop)`. -/
def get (data : Bytes) (start stop : ℕ) : Option Bytes :=
  if start ≤ stop ∧ stop ≤ data.length then some ((data.drop start).take (stop - start)) else none

/-- A sum in 64 bits; `none` where it overflows. -/
def usizeAdd? (a b : ℕ) : Option ℕ := if a + b < 2 ^ 64 then some (a + b) else none

theorem get_eq_some {data part : Bytes} {start stop : ℕ} :
    get data start stop = some part ↔
      start ≤ stop ∧ stop ≤ data.length ∧ (data.drop start).take (stop - start) = part := by
  simp only [get, Option.ite_none_right_eq_some, Option.some.injEq, and_assoc]

theorem usizeAdd?_eq_some {a b c : ℕ} : usizeAdd? a b = some c ↔ a + b < 2 ^ 64 ∧ a + b = c := by
  simp only [usizeAdd?, Option.ite_none_right_eq_some, Option.some.injEq]

/-- A big-endian number. -/
def be (bytes : Bytes) : ℕ := bytes.foldl (fun n b => n * 256 + b.toNat) 0

/-- The number of the first four bytes; `none` where an index is out of range. -/
def be32? (bytes : Bytes) : Option ℕ := do
  let b₀ ← bytes[0]?
  let b₁ ← bytes[1]?
  let b₂ ← bytes[2]?
  let b₃ ← bytes[3]?
  pure (be [b₀, b₁, b₂, b₃])

/-- Dots per metre, as dots per inch. -/
def perInch (perMetre : ℚ) : ℚ := perMetre * 254 / 10000

def pHYs : Bytes := [0x70, 0x48, 0x59, 0x73]
def idat : Bytes := [0x49, 0x44, 0x41, 0x54]
def iend : Bytes := [0x49, 0x45, 0x4E, 0x44]

/-- What the body of a `pHYs` chunk states; nothing where its unit is unknown. -/
def physDpi? (body : Bytes) : Option (Option (ℚ × ℚ)) := do
  let unit ← body[8]?
  if unit ≠ 1 then pure none
  else do
    let x ← be32? (← get body 0 4)
    let y ← be32? (← get body 4 8)
    pure (some (perInch x, perInch y))

/-- The loop over the chunks; `none` where the code would panic. -/
def pngDpi? (data : Bytes) (pos : ℕ) : Option (Option (ℚ × ℚ)) :=
  match usizeAdd? pos 8 with
  | none => none
  | some stop =>
    match _hheader : get data pos stop with
    | none => some none
    | some header => do
      let len ← be32? (← get header 0 4)
      let kind ← get header 4 8
      if kind = pHYs then
        match get data (← usizeAdd? pos 8) (← usizeAdd? pos 17) with
        | none => pure none
        | some body => physDpi? body
      else if kind = idat ∨ kind = iend then pure none
      else
        match _hsize : usizeAdd? 12 len with
        | none => none
        | some size =>
          -- `checked_add` gives up where the sum overflows
          match _hnext : usizeAdd? pos size with
          | none => pure none
          | some next => pngDpi? data next
termination_by data.length + 1 - pos
decreasing_by
  have hpos := (get_eq_some.mp _hheader).1
  have hstop := (get_eq_some.mp _hheader).2.1
  have hs := usizeAdd?_eq_some.mp _hsize
  have hn := usizeAdd?_eq_some.mp _hnext
  omega

/-- The JFIF header at the beginning of a JPEG file. -/
def jfifDpi? (data : Bytes) : Option (Option (ℚ × ℚ)) :=
  match get data 2 18 with
  | none => some none
  | some app0 => do
    if (← get app0 0 2) ≠ [0xFF, 0xE0] ∨ (← get app0 4 9) ≠ [0x4A, 0x46, 0x49, 0x46, 0x00] then
      pure none
    else do
      let x := be [← app0[12]?, ← app0[13]?]
      let y := be [← app0[14]?, ← app0[15]?]
      match ← app0[11]? with
      | 1 => pure (some ((x : ℚ), (y : ℚ)))
      | 2 => pure (some ((x : ℚ) * 254 / 100, (y : ℚ) * 254 / 100))
      | _ => pure none

/-- `i32::from_le_bytes`, of the four bytes at `start`. -/
def le32? (data : Bytes) (start : ℕ) : Option ℤ :=
  (get data start (start + 4)).map fun b => (BitVec.ofNat 32 (be b.reverse)).toInt

/-- The two resolutions in the header of a BMP file. -/
def bmpDpi? (data : Bytes) : Option (ℚ × ℚ) := do
  let x ← le32? data 38
  let y ← le32? data 42
  pure ((x : ℚ) * 254 / 10000, (y : ℚ) * 254 / 10000)

/-- Both resolutions are at least 10 dots per inch. -/
def credible (dpi : ℚ × ℚ) : Bool := decide (10 ≤ dpi.1) && decide (10 ≤ dpi.2)

/-- `metadata_dpi`; `none` where the code would panic. -/
def metadataDpi? (data : Bytes) (format : ImageFormat) : Option (Option (ℚ × ℚ)) := do
  let dpi ←
    match format with
    | .png => pngDpi? data 8
    | .jpeg => jfifDpi? data
    | .bmp => some (bmpDpi? data)
    | _ => some none
  pure (dpi.filter credible)

/-! ### Indices in range -/

/-- The bytes that stand at `start` are what `get` returns. -/
theorem get_of_drop {data part rest : Bytes} {start : ℕ} (h : data.drop start = part ++ rest)
    (hne : part ≠ []) : get data start (start + part.length) = some part := by
  have hlen := congrArg List.length h
  have hpos := List.length_pos_iff.mpr hne
  rw [List.length_drop, List.length_append] at hlen
  refine get_eq_some.mpr ⟨by omega, by omega, ?_⟩
  rw [h, Nat.add_sub_cancel_left, List.take_left]

/-- A range that ends within the data stands there. -/
theorem drop_eq_append (data : Bytes) (start len : ℕ) (h : start + len ≤ data.length) :
    ∃ part rest, data.drop start = part ++ rest ∧ part.length = len := by
  refine ⟨(data.drop start).take len, (data.drop start).drop len,
    (List.take_append_drop len _).symm, ?_⟩
  rw [List.length_take, List.length_drop]
  omega

theorem get_eq_none {data : Bytes} {start len : ℕ} (h : data.length < start + len) :
    get data start (start + len) = none := by
  rw [get, if_neg]
  omega

theorem usizeAdd?_of_lt {a b : ℕ} (h : a + b < 2 ^ 64) : usizeAdd? a b = some (a + b) :=
  usizeAdd?_eq_some.mpr ⟨h, rfl⟩

/-- Four bytes make a number of 32 bits. -/
theorem be_lt {bytes : Bytes} (h : bytes.length = 4) : be bytes < 2 ^ 32 := by
  obtain ⟨b₀, b₁, b₂, b₃, rfl⟩ := List.length_eq_four.mp h
  have h₀ := b₀.toNat_lt
  have h₁ := b₁.toNat_lt
  have h₂ := b₂.toNat_lt
  have h₃ := b₃.toNat_lt
  simp only [be, List.foldl_cons, List.foldl_nil]
  omega

theorem be32?_eq {bytes : Bytes} (h : bytes.length = 4) : be32? bytes = some (be bytes) := by
  obtain ⟨b₀, b₁, b₂, b₃, rfl⟩ := List.length_eq_four.mp h
  rfl

/-! ### The list of chunks -/

/-- A chunk begins at `pos`: its declared length in four bytes, then its kind. -/
def ChunkAt (data : Bytes) (pos len : ℕ) (kind : Bytes) : Prop :=
  ∃ size rest, data.drop pos = size ++ (kind ++ rest) ∧ size.length = 4 ∧ kind.length = 4 ∧
    be size = len

/-- The body of a resolution begins at `pos`, and is complete: two resolutions of four bytes, then
their unit. -/
def PhysAt (data : Bytes) (pos x y : ℕ) (unit : UInt8) : Prop :=
  ∃ xs ys rest, data.drop pos = xs ++ (ys ++ unit :: rest) ∧ xs.length = 4 ∧ ys.length = 4 ∧
    be xs = x ∧ be ys = y

/-- Walking from one chunk to the next by their declared lengths (four bytes for the length, four
for the kind and four for the checksum come on top), over chunks that are neither a resolution
nor image data nor the end. -/
inductive Walk (data : Bytes) : ℕ → ℕ → Prop
  | here (pos : ℕ) : Walk data pos pos
  | past {pos stop len : ℕ} {kind : Bytes} : ChunkAt data pos len kind →
      kind ≠ pHYs → kind ≠ idat → kind ≠ iend → Walk data (pos + 12 + len) stop → Walk data pos stop

theorem ChunkAt.bounds {data kind : Bytes} {pos len : ℕ} (h : ChunkAt data pos len kind) :
    pos + 8 ≤ data.length ∧ len < 2 ^ 32 := by
  obtain ⟨size, rest, hdrop, hsize, hkind, rfl⟩ := h
  have hlen := congrArg List.length hdrop
  rw [List.length_drop, List.length_append, List.length_append, hsize, hkind] at hlen
  exact ⟨by omega, be_lt hsize⟩

theorem PhysAt.bound {data : Bytes} {pos x y : ℕ} {unit : UInt8} (h : PhysAt data pos x y unit) :
    pos + 9 ≤ data.length := by
  obtain ⟨xs, ys, rest, hdrop, hxs, hys, -, -⟩ := h
  have hlen := congrArg List.length hdrop
  simp only [List.length_drop, List.length_append, List.length_cons, hxs, hys] at hlen
  omega

/-- A position holds one chunk at most. -/
theorem ChunkAt.unique {data k₁ k₂ : Bytes} {pos l₁ l₂ : ℕ} (h₁ : ChunkAt data pos l₁ k₁)
    (h₂ : ChunkAt data pos l₂ k₂) : l₁ = l₂ ∧ k₁ = k₂ := by
  obtain ⟨s₁, r₁, hd₁, hs₁, hk₁, rfl⟩ := h₁
  obtain ⟨s₂, r₂, hd₂, hs₂, hk₂, rfl⟩ := h₂
  obtain ⟨hs, hr⟩ := List.append_inj (hd₁.symm.trans hd₂) (by rw [hs₁, hs₂])
  obtain ⟨hk, -⟩ := List.append_inj hr (by rw [hk₁, hk₂])
  exact ⟨congrArg be hs, hk⟩

/-- A position holds one resolution at most. -/
theorem PhysAt.unique {data : Bytes} {pos x₁ x₂ y₁ y₂ : ℕ} {u₁ u₂ : UInt8}
    (h₁ : PhysAt data pos x₁ y₁ u₁) (h₂ : PhysAt data pos x₂ y₂ u₂) :
    x₁ = x₂ ∧ y₁ = y₂ ∧ u₁ = u₂ := by
  obtain ⟨xs₁, ys₁, r₁, hd₁, hx₁, hy₁, rfl, rfl⟩ := h₁
  obtain ⟨xs₂, ys₂, r₂, hd₂, hx₂, hy₂, rfl, rfl⟩ := h₂
  obtain ⟨hx, hr⟩ := List.append_inj (hd₁.symm.trans hd₂) (by rw [hx₁, hx₂])
  obtain ⟨hy, hu⟩ := List.append_inj hr (by rw [hy₁, hy₂])
  exact ⟨congrArg be hx, congrArg be hy, (List.cons.inj hu).1⟩

/-- Eight bytes hold a chunk. -/
theorem exists_chunkAt {data : Bytes} {pos : ℕ} (h : pos + 8 ≤ data.length) :
    ∃ len kind, ChunkAt data pos len kind := by
  obtain ⟨size, rest, hdrop, hsize⟩ := drop_eq_append data pos 4 (by omega)
  have hlen := congrArg List.length hdrop
  rw [List.length_drop, List.length_append] at hlen
  obtain ⟨kind, rest', hdrop', hkind⟩ := drop_eq_append rest 0 4 (by omega)
  refine ⟨be size, kind, size, rest', ?_, hsize, hkind, rfl⟩
  rw [hdrop, ← hdrop', List.drop_zero]

/-- Nine bytes hold a resolution. -/
theorem exists_physAt {data : Bytes} {pos : ℕ} (h : pos + 9 ≤ data.length) :
    ∃ x y unit, PhysAt data pos x y unit := by
  obtain ⟨xs, rest, hdrop, hxs⟩ := drop_eq_append data pos 4 (by omega)
  have hlen := congrArg List.length hdrop
  rw [List.length_drop, List.length_append] at hlen
  obtain ⟨ys, rest', hdrop', hys⟩ := drop_eq_append rest 0 4 (by omega)
  have hlen' := congrArg List.length hdrop'
  rw [List.length_drop, List.length_append] at hlen'
  cases rest' with
  | nil => exact absurd hlen' (by simp only [List.length_nil]; omega)
  | cons unit rest'' =>
    refine ⟨be xs, be ys, unit, xs, ys, rest'', ?_, hxs, hys, rfl, rfl⟩
    rw [hdrop, ← hdrop', List.drop_zero]

/-! ### One turn of the loop -/

section Loop

variable {data kind : Bytes} {pos len : ℕ}

/-- Where no chunk begins any more the loop returns nothing. -/
theorem pngDpi?_end (hfits : pos + 8 < 2 ^ 64) (h : data.length < pos + 8) :
    pngDpi? data pos = some none := by
  rw [pngDpi?, usizeAdd?_of_lt hfits]
  split
  · rename_i heq
    cases heq
  · rename_i stop heq
    cases heq
    rw [get_eq_none h]

/-- What the loop does with the header of a chunk. -/
theorem pngDpi?_chunk (hlen : data.length < 2 ^ 63) (h : ChunkAt data pos len kind) :
    pngDpi? data pos =
      if kind = pHYs then
        match get data (pos + 8) (pos + 17) with
        | none => some none
        | some body => physDpi? body
      else if kind = idat ∨ kind = iend then some none
      else pngDpi? data (pos + 12 + len) := by
  obtain ⟨hpos, hl⟩ := h.bounds
  obtain ⟨size, rest, hdrop, hsize, hkind, rfl⟩ := h
  have hheader : get data pos (pos + 8) = some (size ++ kind) := by
    rw [← List.append_assoc] at hdrop
    have := get_of_drop hdrop (List.ne_nil_of_length_pos (by rw [List.length_append]; omega))
    rwa [List.length_append, hsize, hkind] at this
  have hlenField : get (size ++ kind) 0 4 = some size := by
    have := get_of_drop (show (size ++ kind).drop 0 = size ++ kind from rfl)
      (List.ne_nil_of_length_pos (by omega))
    rwa [hsize] at this
  have hkindField : get (size ++ kind) 4 8 = some kind := by
    refine get_eq_some.mpr ⟨by omega, by rw [List.length_append]; omega, ?_⟩
    rw [List.drop_left' hsize, List.take_of_length_le (by omega)]
  rw [pngDpi?, usizeAdd?_of_lt (show pos + 8 < 2 ^ 64 by omega)]
  dsimp only
  split
  · rename_i hget
    rw [hheader] at hget
    cases hget
  · rename_i header hget
    rw [hheader] at hget
    cases hget
    rw [hlenField, hkindField]
    simp only [Option.bind_eq_bind, Option.bind_some, be32?_eq hsize, Option.pure_def,
      usizeAdd?_of_lt (show pos + 17 < 2 ^ 64 by omega)]
    split_ifs
    · rfl
    · rfl
    · have hsum : usizeAdd? 12 (be size) = some (12 + be size) := usizeAdd?_of_lt (by omega)
      have hnext : usizeAdd? pos (12 + be size) = some (pos + 12 + be size) :=
        usizeAdd?_eq_some.mpr ⟨by omega, by omega⟩
      split
      · rename_i hnone
        rw [hsum] at hnone
        cases hnone
      · rename_i step hstep
        rw [hsum] at hstep
        cases hstep
        split
        · rename_i hnone
          rw [hnext] at hnone
          cases hnone
        · rename_i next heq
          rw [hnext] at heq
          cases heq
          rfl

/-- A complete body is read in full. -/
theorem physDpi?_eq {x y : ℕ} {unit : UInt8} (h : PhysAt data pos x y unit) :
    ∃ body, get data pos (pos + 9) = some body ∧
      physDpi? body = some (if unit = 1 then some (perInch x, perInch y) else none) := by
  obtain ⟨xs, ys, rest, hdrop, hxs, hys, rfl, rfl⟩ := h
  refine ⟨xs ++ (ys ++ [unit]), ?_, ?_⟩
  · have hcut : data.drop pos = (xs ++ (ys ++ [unit])) ++ rest := by
      rw [hdrop, List.append_assoc, List.append_assoc]
      rfl
    have := get_of_drop hcut (List.ne_nil_of_length_pos (by rw [List.length_append]; omega))
    simpa only [List.length_append, hxs, hys, List.length_singleton] using this
  · have hx : get (xs ++ (ys ++ [unit])) 0 4 = some xs := by
      have := get_of_drop (show (xs ++ (ys ++ [unit])).drop 0 = xs ++ (ys ++ [unit]) from rfl)
        (List.ne_nil_of_length_pos (by omega))
      rwa [hxs] at this
    have hy : get (xs ++ (ys ++ [unit])) 4 8 = some ys := by
      have := get_of_drop
        (show (xs ++ (ys ++ [unit])).drop 4 = ys ++ [unit] from List.drop_left' hxs)
        (List.ne_nil_of_length_pos (by omega))
      rwa [hys] at this
    have hunit : (xs ++ (ys ++ [unit]))[8]? = some unit := by
      rw [List.getElem?_append_right (by omega), hxs, List.getElem?_append_right (by omega), hys]
      rfl
    rw [physDpi?, hunit, hx, hy]
    by_cases hu : unit = 1
    · simp only [Option.bind_eq_bind, Option.bind_some, be32?_eq hxs, be32?_eq hys, hu, ne_eq,
        not_true_eq_false, if_false, if_true, Option.pure_def]
    · simp only [Option.bind_eq_bind, Option.bind_some, hu, ne_eq, not_false_eq_true, if_true,
        if_false, Option.pure_def]

/-- What the loop makes of the body of a resolution, whether complete or not. -/
theorem phys_spec (data : Bytes) (pos : ℕ) :
    ∃ found, (match get data pos (pos + 9) with
        | none => some none
        | some body => physDpi? body) = some found ∧
      ∀ dpi, found = some dpi ↔ ∃ x y, PhysAt data pos x y 1 ∧ dpi = (perInch x, perInch y) := by
  by_cases hbody : pos + 9 ≤ data.length
  · obtain ⟨x, y, unit, hphys⟩ := exists_physAt hbody
    obtain ⟨body, hget, hvalue⟩ := physDpi?_eq hphys
    rw [hget]
    refine ⟨_, hvalue, fun dpi => ?_⟩
    constructor
    · intro h
      obtain ⟨hunit, hdpi⟩ := Option.ite_none_right_eq_some.mp h
      exact ⟨x, y, hunit ▸ hphys, (Option.some.inj hdpi).symm⟩
    · rintro ⟨x', y', hphys', rfl⟩
      obtain ⟨rfl, rfl, rfl⟩ := hphys.unique hphys'
      rfl
  · rw [get_eq_none (by omega)]
    refine ⟨none, rfl, fun dpi => ⟨(nomatch ·), ?_⟩⟩
    rintro ⟨x, y, hphys, -⟩
    exact absurd hphys.bound hbody

end Loop

/-! ### The resolution of a file -/

/-- Walking from `pos` reaches a resolution, which is complete and in dots per metre. -/
def States (data : Bytes) (pos : ℕ) (dpi : ℚ × ℚ) : Prop :=
  ∃ stop len x y, Walk data pos stop ∧ ChunkAt data stop len pHYs ∧ PhysAt data (stop + 8) x y 1 ∧
    dpi = (perInch x, perInch y)

/-- A walk over a chunk: the resolution is its own, or what the walk reaches behind it. -/
theorem states_iff {data kind : Bytes} {pos len : ℕ} {dpi : ℚ × ℚ}
    (h : ChunkAt data pos len kind) :
    States data pos dpi ↔
      (kind = pHYs ∧ ∃ x y, PhysAt data (pos + 8) x y 1 ∧ dpi = (perInch x, perInch y)) ∨
      (kind ≠ pHYs ∧ kind ≠ idat ∧ kind ≠ iend ∧ States data (pos + 12 + len) dpi) := by
  constructor
  · rintro ⟨stop, l, x, y, hwalk, hchunk, hphys, hdpi⟩
    cases hwalk with
    | here => exact Or.inl ⟨(h.unique hchunk).2, x, y, hphys, hdpi⟩
    | past hover hkind hdata hend hrest =>
      obtain ⟨rfl, rfl⟩ := h.unique hover
      exact Or.inr ⟨hkind, hdata, hend, stop, l, x, y, hrest, hchunk, hphys, hdpi⟩
  · rintro (⟨rfl, x, y, hphys, hdpi⟩ | ⟨hkind, hdata, hend, stop, l, x, y, hwalk, hrest⟩)
    · exact ⟨pos, len, x, y, Walk.here pos, h, hphys, hdpi⟩
    · exact ⟨stop, l, x, y, Walk.past h hkind hdata hend hwalk, hrest⟩

/-- Behind the end of the data there is none. -/
theorem not_states {data : Bytes} {pos : ℕ} {dpi : ℚ × ℚ} (h : data.length < pos + 8) :
    ¬ States data pos dpi := by
  rintro ⟨stop, l, x, y, hwalk, hchunk, -, -⟩
  cases hwalk with
  | here => exact absurd hchunk.bounds.1 (by omega)
  | past hover => exact absurd hover.bounds.1 (by omega)

/-- **The loop finds what the walk reaches.** Induction on what is left of the data: every turn
ends the loop, or continues twelve bytes further on at least. -/
theorem pngDpi?_spec {data : Bytes} (hlen : data.length < 2 ^ 63) (pos : ℕ)
    (hpos : pos + 8 < 2 ^ 64) :
    ∃ found, pngDpi? data pos = some found ∧ ∀ dpi, found = some dpi ↔ States data pos dpi := by
  generalize hleft : data.length + 1 - pos = left
  induction left using Nat.strong_induction_on generalizing pos with
  | _ left ih =>
    by_cases hend : data.length < pos + 8
    · exact ⟨none, pngDpi?_end hpos hend, fun dpi =>
        ⟨(nomatch ·), fun h => absurd h (not_states hend)⟩⟩
    · obtain ⟨len, kind, hchunk⟩ := exists_chunkAt (Nat.not_lt.mp hend)
      have hl := hchunk.bounds.2
      rw [pngDpi?_chunk hlen hchunk]
      simp only [states_iff hchunk]
      by_cases hkind : kind = pHYs
      · rw [if_pos hkind]
        obtain ⟨found, hfound, hiff⟩ := phys_spec data (pos + 8)
        refine ⟨found, hfound, fun dpi => (hiff dpi).trans ?_⟩
        constructor
        · exact fun h => Or.inl ⟨hkind, h⟩
        · rintro (⟨-, h⟩ | ⟨hne, -⟩)
          · exact h
          · exact absurd hkind hne
      · rw [if_neg hkind]
        by_cases hstop : kind = idat ∨ kind = iend
        · rw [if_pos hstop]
          refine ⟨none, rfl, fun dpi => ⟨(nomatch ·), ?_⟩⟩
          rintro (⟨heq, -⟩ | ⟨-, hdata, hiend, -⟩)
          · exact absurd heq hkind
          · exact absurd hstop (not_or.mpr ⟨hdata, hiend⟩)
        · rw [if_neg hstop]
          obtain ⟨found, hfound, hiff⟩ := ih (data.length + 1 - (pos + 12 + len)) (by omega)
            (pos + 12 + len) (by omega) rfl
          refine ⟨found, hfound, fun dpi => (hiff dpi).trans ?_⟩
          obtain ⟨hdata, hiend⟩ := not_or.mp hstop
          constructor
          · exact fun h => Or.inr ⟨hkind, hdata, hiend, h⟩
          · rintro (⟨heq, -⟩ | ⟨-, -, -, h⟩)
            · exact absurd heq hkind
            · exact h

/-- **The resolution of a PNG file.** The scan of a file ends without leaving the data, and returns
a resolution just when the walk over its chunks reaches a complete one, in dots per metre, before
image data and before the end, which is at least 10 dots per inch both ways. The bytes are a slice,
which is at most `isize::MAX` long. -/
theorem png_resolution (data : Bytes) (hlen : data.length < 2 ^ 63) :
    ∃ found, metadataDpi? data .png = some found ∧
      ∀ dpi, found = some dpi ↔ States data 8 dpi ∧ 10 ≤ dpi.1 ∧ 10 ≤ dpi.2 := by
  obtain ⟨found, hfound, hiff⟩ := pngDpi?_spec hlen 8 (by omega)
  refine ⟨found.filter credible, by rw [metadataDpi?, hfound]; rfl, fun dpi => ?_⟩
  rw [Option.filter_eq_some_iff, hiff, credible, Bool.and_eq_true, decide_eq_true_iff,
    decide_eq_true_iff]

/-- A file with a resolution of 11811 dots per metre behind its header. -/
def resolved : Bytes :=
  [0x89, 0x50, 0x4E, 0x47, 0x0D, 0x0A, 0x1A, 0x0A] ++
    ([0, 0, 0, 13, 0x49, 0x48, 0x44, 0x52] ++ [0, 0, 0, 4, 0, 0, 0, 2, 8, 6, 0, 0, 0] ++
      [0, 0, 0, 0]) ++
    ([0, 0, 0, 9] ++ pHYs ++ [0, 0, 0x2E, 0x23] ++ [0, 0, 0x2E, 0x23] ++ [1])

theorem png_resolution_resolved :
    metadataDpi? resolved .png = some (some (2999994 / 10000, 2999994 / 10000)) := by
  obtain ⟨found, hfound, hiff⟩ := png_resolution resolved (by decide)
  have hheader : ChunkAt resolved 8 13 [0x49, 0x48, 0x44, 0x52] :=
    ⟨[0, 0, 0, 13], _, rfl, rfl, rfl, rfl⟩
  have hchunk : ChunkAt resolved 33 9 pHYs := ⟨[0, 0, 0, 9], _, rfl, rfl, rfl, rfl⟩
  have hphys : PhysAt resolved 41 11811 11811 1 :=
    ⟨[0, 0, 0x2E, 0x23], [0, 0, 0x2E, 0x23], [], rfl, rfl, rfl, rfl, rfl⟩
  have hwalk : Walk resolved 8 33 :=
    Walk.past hheader (by decide) (by decide) (by decide) (Walk.here 33)
  have hdpi : perInch (11811 : ℕ) = 2999994 / 10000 := by decide +kernel
  have hcredible : (10 : ℚ) ≤ perInch (11811 : ℕ) := by decide +kernel
  rw [hfound, (hiff _).mpr ⟨⟨33, 9, 11811, 11811, hwalk, hchunk, hphys, rfl⟩, hcredible,
    hcredible⟩, hdpi]

end Resolution

end KilnPrint
