import Mathlib.Data.List.Basic
import ProgressiveFrame.Proofs.Text.Words

/-!
# Dumps are read back

The words of a dump are those that its writer put down, and each of them has a value. So a dump of an image gives an
image of the same size, in which each pixel has what its three words keep of the colour.

* `RgbImage.words_dump`: the words of the text of an image.
* `RgbImage.readValue_pixelWords`: the values that the words of a pixel have.
* `RgbImage.ofScan_values`: the scan meets each pixel where it was.
* `RgbImage.ofDump_dumpBytes_eq`: a dump is read back as the image of what it keeps (`RgbImage.keptColor`).
-/

namespace ProgressiveFrame.RgbImage

variable {kind : ImageKind} {format : DumpFormat} {i : RgbImage}

/-- The pixels fill the rectangle, and its sides are numbers of 32 bits. -/
structure Formed (i : RgbImage) : Prop where
  size : i.pixels.size = i.width * i.height
  width : i.width < 0x100000000
  height : i.height < 0x100000000

/-- The image with a function applied to each colour. -/
def mapColors (f : Rgb Binary32 → Rgb Binary32) (i : RgbImage) : RgbImage := { i with pixels := i.pixels.map f }

/-! ## What a dump keeps -/

/-- The values of the words of a pixel. -/
def pixelValues [Powers] (kind : ImageKind) (format : DumpFormat) (greatest : Binary32) (c : Rgb Binary32) :
    List Binary32 :=
  let n := wholeCount c
  match format, kind with
  | .ppm, .beauty => c.toList.map fun v => gammaDecode (gammaEncode v)
  | .ppm, .numSample =>
    let scaled := shareOf (n * Scalar.ofNat 255) greatest
    [.ofUInt8 (Scalar.min n (Scalar.ofNat 255)).toUInt8, .ofUInt8 scaled.toUInt8, .ofUInt8 0]
  | .fbd, .beauty => c.toList
  | .fbd, .numSample => [n, shareOf n greatest, .zero]

/-- What a dump keeps of a colour. -/
def keptColor [Powers] (kind : ImageKind) (format : DumpFormat) (c : Rgb Binary32) : Rgb Binary32 :=
  match format, kind with
  | .ppm, .beauty => c.map fun v => gammaDecode (gammaEncode v)
  | .ppm, .numSample => .uniform (.ofUInt8 (Scalar.min (wholeCount c) (Scalar.ofNat 255)).toUInt8)
  | .fbd, .beauty => c
  | .fbd, .numSample => .uniform (wholeCount c)

@[simp] theorem length_pixelValues [Powers] (kind : ImageKind) (format : DumpFormat) (greatest : Binary32)
    (c : Rgb Binary32) : (pixelValues kind format greatest c).length = 3 := by
  cases format <;> cases kind <;> rfl

theorem readValue_hexWord [Powers] (kind : ImageKind) (v : Binary32) : readValue kind .fbd v.hexWord = .ok v := by
  rw [readValue, Binary32.ofHexWord?_hexWord]

theorem readValue_decimal [Powers] (kind : ImageKind) (b : UInt8) :
    readValue kind .ppm (Text.decimal b.toNat) =
      .ok (match kind with | .beauty => gammaDecode b | .numSample => .ofUInt8 b) := by
  rw [readValue, Text.readNatural?_decimal b.toNat_lt]
  cases kind <;> simp

/-- The words of a pixel have the values of the pixel. -/
theorem readValue_pixelWords [Powers] (kind : ImageKind) (format : DumpFormat) (greatest : Binary32)
    (c : Rgb Binary32) : (pixelWords kind format greatest c).map (readValue kind format) =
      (pixelValues kind format greatest c).map .ok := by
  cases format with
  | ppm =>
    have hzero : readValue kind .ppm ['0'] = _ := readValue_decimal kind 0
    cases kind with
    | beauty => simp only [pixelWords, pixelValues, Rgb.toList, List.map_cons, List.map_nil, readValue_decimal]
    | numSample => simp only [pixelWords, pixelValues, List.map_cons, List.map_nil, readValue_decimal, hzero]
  | fbd =>
    cases kind with
    | beauty => simp only [pixelWords, pixelValues, Rgb.toList, List.map_cons, List.map_nil, readValue_hexWord]
    | numSample => simp only [pixelWords, pixelValues, List.map_cons, List.map_nil, readValue_hexWord]

theorem isWord_of_mem_pixelWords [Powers] {greatest : Binary32} {c : Rgb Binary32} {w : List Char}
    (h : w ∈ pixelWords kind format greatest c) : Text.IsWord w := by
  cases format with
  | ppm =>
    have hword (b : UInt8) : Text.IsWord (Text.decimal b.toNat) := Text.isWord_decimal _
    cases kind with
    | beauty =>
      obtain ⟨v, -, rfl⟩ := List.mem_map.mp h
      exact hword _
    | numSample =>
      simp only [pixelWords, List.mem_cons, List.not_mem_nil, or_false] at h
      rcases h with rfl | rfl | rfl
      · exact hword _
      · exact hword _
      · exact hword 0
  | fbd =>
    cases kind with
    | beauty =>
      obtain ⟨v, -, rfl⟩ := List.mem_map.mp h
      exact v.isWord_hexWord
    | numSample =>
      simp only [pixelWords, List.mem_cons, List.not_mem_nil, or_false] at h
      rcases h with rfl | rfl | rfl
      · exact Binary32.isWord_hexWord _
      · exact Binary32.isWord_hexWord _
      · exact Binary32.isWord_hexWord _

/-! ## The words of a dump -/

/-- The words for the resolution of the colours. -/
def resolutionWords : DumpFormat → List (List Char)
  | .ppm => [['2', '5', '5']]
  | .fbd => []

/-- The words of a dump before those of the pixels. -/
def headWords (i : RgbImage) (format : DumpFormat) : List (List Char) :=
  format.magic :: Text.decimal i.width :: Text.decimal i.height :: resolutionWords format

theorem isWord_magic (format : DumpFormat) : Text.IsWord format.magic := by
  cases format with
  | ppm => decide
  | fbd => decide

theorem words_dump [Powers] (i : RgbImage) (kind : ImageKind) (format : DumpFormat) :
    Text.words (i.dump kind format) = i.headWords format ++ i.scan.flatMap (pixelWords kind format i.maxRed.trunc) := by
  have hbody : Text.words (i.scan.flatMap fun c => (pixelWords kind format i.maxRed.trunc c).flatMap (· ++ [' '])) =
      i.scan.flatMap (pixelWords kind format i.maxRed.trunc) := by
    rw [← List.flatMap_assoc, Text.words_flatMap_blank]
    intro w hw
    obtain ⟨c, -, hw⟩ := List.mem_flatMap.mp hw
    exact isWord_of_mem_pixelWords hw
  unfold dump dumpHeader
  simp only [List.append_assoc, List.cons_append, List.nil_append]
  rw [(isWord_magic format).words_append rfl, (Text.isWord_decimal i.width).words_append rfl,
    (Text.isWord_decimal i.height).words_append rfl]
  cases format with
  | ppm =>
    have hcodes : Text.IsWord ['2', '5', '5'] := Text.isWord_decimal 255
    exact congrArg _ (congrArg _ (congrArg _ ((hcodes.words_append rfl _).trans (congrArg _ hbody))))
  | fbd => exact congrArg _ (congrArg _ (congrArg _ hbody))

/-! ## Reading -/

/-- Words that have values are read as these, and then those that follow. -/
theorem readValues_append [Powers] {width height : Nat} {ws : List (List Char)} {vs : List Binary32}
    (h : ws.map (readValue kind format) = vs.map .ok) (n : Nat) (read : Array Binary32) (rest : List (List Char)) :
    readValues kind format width height (vs.length + n) read (ws ++ rest) =
      readValues kind format width height n (read ++ vs.toArray) rest := by
  induction vs generalizing ws read with
  | nil =>
    obtain rfl := List.map_eq_nil_iff.mp h
    simp
  | cons v vs ih =>
    obtain ⟨w, ws, rfl, hw, hws⟩ := List.map_eq_cons_iff.mp h
    rw [List.cons_append, List.length_cons, Nat.add_right_comm, readValues, hw]
    simpa using ih hws (read.push v)

/-- Words that have values are read as these, whatever follows them. -/
theorem readValues_of_map [Powers] {width height : Nat} {ws : List (List Char)} {vs : List Binary32}
    (h : ws.map (readValue kind format) = vs.map .ok) (read : Array Binary32) (rest : List (List Char)) :
    readValues kind format width height vs.length read (ws ++ rest) = .ok (read ++ vs.toArray) := by
  rw [← Nat.add_zero vs.length, readValues_append h, readValues]

theorem readDimension_decimal {n : Nat} (h : n < 0x100000000) (axis : Axis) (words : List (List Char)) :
    readDimension axis (Text.decimal n :: words) = .ok (n, words) := by
  rw [readDimension, Text.readNatural?_decimal h]

theorem readResolution_resolutionWords (format : DumpFormat) (words : List (List Char)) :
    readResolution format (resolutionWords format ++ words) = .ok words := by
  cases format with
  | ppm => rfl
  | fbd => rfl

/-- After the head of a dump the values of the words are read. -/
theorem ofWords_headWords [Powers] (hf : i.Formed) (kind : ImageKind) (format : DumpFormat) {ws : List (List Char)}
    {vs : List Binary32} (h : ws.map (readValue kind format) = vs.map .ok)
    (hlength : vs.length = 3 * (i.width * i.height)) :
    ofWords kind format (i.headWords format ++ ws) = .ok (ofScan kind i.width i.height vs.toArray) := by
  have hread : readValues kind format i.width i.height (3 * (i.width * i.height)) #[] ws = .ok vs.toArray := by
    rw [← hlength, ← List.append_nil ws, readValues_of_map h, Array.empty_append]
  have hwidth := readDimension_decimal hf.width .width
  have hheight := readDimension_decimal hf.height .height
  simp only [ofWords, headWords, List.cons_append, List.headD_cons, List.tail_cons, ne_eq, not_true, if_false, bind,
    Except.bind, hwidth, hheight, readResolution_resolutionWords, hread]
  rfl

theorem fromUTF8?_toUTF8 (text : List Char) :
    String.fromUTF8? (String.ofList text).toUTF8 = some (String.ofList text) :=
  dif_pos (String.ofList text).isValidUTF8

theorem ofDump_toUTF8 [Powers] (kind : ImageKind) (format : DumpFormat) (text : List Char) :
    ofDump kind format (String.ofList text).toUTF8 = (ofWords kind format (Text.words text)).mapError .malformed := by
  rw [ofDump, fromUTF8?_toUTF8]
  simp only [String.toList_ofList]
  cases ofWords kind format (Text.words text) with
  | error fault => rfl
  | ok j => rfl

/-! ## The scan -/

/-- The place in the scan of the pixel with this place, and the other way round. -/
def scanPlace (width height k : Nat) : Nat := (height - 1 - k / width) * width + k % width

section ScanPlace

variable {width height k : Nat} (hk : k < width * height)
include hk

theorem scanPlace_div : scanPlace width height k / width = height - 1 - k / width := by
  have hwidth : 0 < width := Nat.pos_of_lt_mul_right hk
  rw [scanPlace, Nat.mul_comm, Nat.mul_add_div hwidth, Nat.div_eq_of_lt (Nat.mod_lt _ hwidth), Nat.add_zero]

theorem scanPlace_lt : scanPlace width height k < width * height := by
  have hwidth : 0 < width := Nat.pos_of_lt_mul_right hk
  have hheight : 0 < height := Nat.pos_of_lt_mul_left hk
  have hrow : height - 1 - k / width < height := by
    generalize k / width = row
    omega
  rw [Nat.mul_comm]
  exact Nat.lt_mul_of_div_lt (by rwa [scanPlace_div hk]) hwidth

theorem scanPlace_scanPlace : scanPlace width height (scanPlace width height k) = k := by
  have hmod : scanPlace width height k % width = k % width := by
    rw [scanPlace, Nat.mul_comm, Nat.mul_add_mod, Nat.mod_mod]
  have hrow : height - 1 - (height - 1 - k / width) = k / width := by
    have hlt : k / width < height := Nat.div_lt_of_lt_mul hk
    generalize k / width = row at hlt
    omega
  rw [scanPlace, scanPlace_div hk, hmod, hrow, Nat.div_add_mod']

end ScanPlace

theorem scan_eq_map (hf : i.Formed) :
    i.scan = (List.range (i.width * i.height)).map fun k => i.pixels.getD (scanPlace i.width i.height k) default := by
  refine List.filterMap_eq_map_iff_forall_eq_some.mpr fun k hk => ?_
  have hplace : scanPlace i.width i.height k < i.pixels.size := by
    rw [hf.size]
    exact scanPlace_lt (List.mem_range.mp hk)
  rw [Array.getD_eq_getD_getElem?, Array.getElem?_eq_getElem hplace]
  exact Array.getElem?_eq_getElem hplace

theorem length_scan (hf : i.Formed) : i.scan.length = i.width * i.height := by
  rw [scan_eq_map hf, List.length_map, List.length_range]

/-- The scan meets each pixel at its place. -/
theorem getElem?_scan (hf : i.Formed) {k : Nat} (hk : k < i.width * i.height) :
    i.scan[scanPlace i.width i.height k]? = some (i.pixels.getD k default) := by
  rw [scan_eq_map hf, List.getElem?_map, List.getElem?_range (scanPlace_lt hk), Option.map_some, scanPlace_scanPlace hk]

/-- In a list made of parts of one length, the parts are found by their numbers. -/
theorem getElem?_flatMap_of_length {α β : Type} {f : α → List β} {n : Nat} (hf : ∀ a, (f a).length = n) (xs : List α)
    {p j : Nat} (hj : j < n) : (xs.flatMap f)[n * p + j]? = xs[p]?.bind fun a => (f a)[j]? := by
  induction xs generalizing p with
  | nil => simp
  | cons a xs ih =>
    rw [List.flatMap_cons]
    cases p with
    | zero =>
      rw [List.getElem?_append_left (by rw [hf]; omega)]
      simp
    | succ p =>
      rw [List.getElem?_append_right (by rw [hf, Nat.mul_succ]; omega), hf, List.getElem?_cons_succ, ← ih]
      congr 1
      rw [Nat.mul_succ]
      omega

theorem keptColor_eq [Powers] (kind : ImageKind) (format : DumpFormat) (greatest : Binary32) (c : Rgb Binary32) :
    keptColor kind format c =
      let value (j : Nat) := (pixelValues kind format greatest c).getD j .zero
      match kind with
      | .beauty => ⟨value 0, value 1, value 2⟩
      | .numSample => .uniform (value 0) := by
  cases format <;> cases kind <;> rfl

theorem ofScan_values [Powers] (hf : i.Formed) (kind : ImageKind) (format : DumpFormat) (greatest : Binary32) :
    ofScan kind i.width i.height (i.scan.flatMap (pixelValues kind format greatest)).toArray =
      i.mapColors (keptColor kind format) := by
  refine congrArg (RgbImage.mk i.width i.height) (Array.ext (by simp [hf.size]) fun k hk hk' => ?_)
  have hplace : k < i.width * i.height := by simpa using hk
  have hpixel : k < i.pixels.size := by simpa using hk'
  have hvalue {j : Nat} (hj : j < 3) :
      (i.scan.flatMap (pixelValues kind format greatest)).toArray.getD (3 * scanPlace i.width i.height k + j) .zero =
        (pixelValues kind format greatest i.pixels[k]).getD j .zero := by
    rw [Array.getD_eq_getD_getElem?, List.getElem?_toArray,
      getElem?_flatMap_of_length (length_pixelValues kind format greatest) _ hj, getElem?_scan hf hplace,
      Option.bind_some, List.getD_eq_getElem?_getD, Array.getD_eq_getD_getElem?, Array.getElem?_eq_getElem hpixel]
    rfl
  rw [Array.getElem_map, Array.getElem_map, Array.getElem_range, keptColor_eq kind format greatest]
  cases kind with
  | beauty => exact congr (congr (congrArg Rgb.mk (hvalue (by decide))) (hvalue (by decide))) (hvalue (by decide))
  | numSample => exact congrArg Rgb.uniform (hvalue (by decide))

theorem ofDump_dumpBytes_eq [Powers] (hf : i.Formed) (kind : ImageKind) (format : DumpFormat) :
    ofDump kind format (i.dumpBytes kind format) = .ok (i.mapColors (keptColor kind format)) := by
  have hvalues : (i.scan.flatMap (pixelWords kind format i.maxRed.trunc)).map (readValue kind format) =
      (i.scan.flatMap (pixelValues kind format i.maxRed.trunc)).map .ok := by
    simp only [List.map_flatMap, readValue_pixelWords]
  have hlength : (i.scan.flatMap (pixelValues kind format i.maxRed.trunc)).length = 3 * (i.width * i.height) := by
    simp [List.length_flatMap, length_scan hf, Nat.mul_comm]
  rw [dumpBytes, ofDump_toUTF8, words_dump, ofWords_headWords hf kind format hvalues hlength, ofScan_values hf]
  rfl

end ProgressiveFrame.RgbImage
