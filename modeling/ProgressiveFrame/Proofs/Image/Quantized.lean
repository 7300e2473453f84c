import ProgressiveFrame.Proofs.Image.RoundTrip

/-!
# Pixel maps of colours

A pixel map keeps the code of each component and nothing else. What a code means depends on how the machine finds
powers, so all is said of any way to find them that gives each code back for the value that it means.

* `RgbImage.quantized`: the image that the codes of an image mean.
* `RgbImage.dump_mapColors`: the text of a pixel map depends on the codes alone.
* `RgbImage.ofDump_dumpBytes_quantized`: the first dump quantises an image, and no later one changes anything.
* `Powers.bySeries`: powers by the series of the logarithm and the exponential, one way to find them.
* `Powers.gammaEncode_gammaDecode`: this way gives each code back.
-/

namespace ProgressiveFrame

namespace RgbImage

variable {i : RgbImage}

/-! ## Images with other colours -/

@[simp] theorem pixel?_mapColors (f : Rgb Binary32 → Rgb Binary32) (i : RgbImage) (x y : Nat) :
    (i.mapColors f).pixel? x y = (i.pixel? x y).map f :=
  Array.getElem?_map

theorem scan_mapColors (f : Rgb Binary32 → Rgb Binary32) (i : RgbImage) : (i.mapColors f).scan = i.scan.map f := by
  simp only [scan, pixel?_mapColors, List.map_filterMap]
  rfl

/-! ## Codes -/

section Codes

variable [Powers]

/-- The image that the codes of an image mean. -/
def quantized (i : RgbImage) : RgbImage := i.mapColors fun c => c.map fun v => gammaDecode (gammaEncode v)

/-- The text of a pixel map depends on the codes alone. -/
theorem dump_mapColors {f : Binary32 → Binary32} (h : ∀ v, gammaEncode (f v) = gammaEncode v) (i : RgbImage) :
    (i.mapColors fun c => c.map f).dump .beauty .ppm = i.dump .beauty .ppm := by
  have hwords (greatest greatest' : Binary32) (c : Rgb Binary32) :
      pixelWords .beauty .ppm greatest (c.map f) = pixelWords .beauty .ppm greatest' c := by
    simp only [pixelWords, Rgb.map, Rgb.toList, List.map_cons, List.map_nil, h]
  rw [dump, dump, scan_mapColors, List.flatMap_map]
  simp only [hwords _ i.maxRed.trunc]
  rfl

/-- A colour whose components are meant by codes is quantised to itself. -/
theorem quantized_of_codes (hcodes : ∀ code, gammaEncode (gammaDecode code) = code)
    (h : ∀ c ∈ i.pixels, ∀ v ∈ c.toList, ∃ code, v = gammaDecode code) : i.quantized = i := by
  have hkept : ∀ c ∈ i.pixels, ∀ v ∈ c.toList, gammaDecode (gammaEncode v) = v := by
    intro c hc v hv
    obtain ⟨code, rfl⟩ := h c hc v hv
    rw [hcodes]
  refine (mapColors_congr fun c hc => ?_).trans i.mapColors_id
  obtain ⟨hr, hg, hb⟩ : _ ∧ _ ∧ _ := by simpa [Rgb.toList] using hkept c hc
  rw [Rgb.map, hr, hg, hb]
  rfl

end Codes

end RgbImage

/-! ## Powers by series -/

namespace Powers

/-- One, with 48 binary places. All numbers below have as many. -/
def unit : Nat := 2 ^ 48

/-- The sum of `w ^ j / (2 * j + 1)` over the `j` below `k`, by Horner's rule, where the terms from `k` on are `rest`.
-/
def artanhSum (w : Nat) : Nat → Nat → Nat
  | 0, rest => rest
  | k + 1, rest => artanhSum w k (unit / (2 * k + 1) + w * rest / unit)

/-- The sum of `z ^ j / j!` over the `j` to `k`, by Horner's rule, where the last factor is `rest`. -/
def expSum (z : Nat) : Nat → Nat → Nat
  | 0, rest => rest
  | k + 1, rest => expSum z k (unit + z * rest / ((k + 1) * unit))

/-- The natural logarithm of a number from one to two. -/
def log (m : Nat) : Nat :=
  let z := (m - unit) * unit / (m + unit)
  2 * z * artanhSum (z * z / unit) 17 0 / unit

/-- The power of two whose exponent is below one. -/
def exp₂ (z : Nat) : Nat := expSum (z * log (2 * unit) / unit) 20 unit

/-- The binary logarithm of a positive number, more by the bias 127 of the exponent. -/
def biasedLog₂ (x : Binary32) : Nat :=
  let fraction := x.bits.toNat % 2 ^ 23
  (x.bits.toNat >>> 23) * unit + log (unit + fraction <<< 25) * unit / log (2 * unit)

/-- Powers of positive numbers with positive exponents. What is too small for a number in single precision is zero. -/
@[reducible] def bySeries : Powers where
  power x y :=
    if x.isNaN then x.quiet
    else
      let factor := (y.significand <<< y.exponent) >>> (149 - 48)
      let total := factor * biasedLog₂ x / unit + 127 * unit - factor * 127
      let fraction := exp₂ (total % unit) - unit
      ⟨UInt32.ofNat ((total / unit) <<< 23 + (fraction + 1 <<< 24) >>> 25)⟩

/-- This way gives each code back. -/
theorem gammaEncode_gammaDecode (code : UInt8) :
    @gammaEncode bySeries (@gammaDecode bySeries code) = code := by
  have hall : ∀ n < 256, @gammaEncode bySeries (@gammaDecode bySeries (UInt8.ofNat n)) = UInt8.ofNat n := by
    decide +kernel
  simpa using hall code.toNat code.toNat_lt

end Powers

/-! ## Writing and reading -/

/-- Pixel maps of colours are stable once an image is quantised. As long as each code is given back for the value that
it means, reading a pixel map gives the image that the codes mean, pixel by pixel, and this image has the same pixel
map. An image whose components are all meant by codes is read back as it is. -/
theorem RgbImage.ofDump_dumpBytes_quantized [Powers] (hcodes : ∀ code, gammaEncode (gammaDecode code) = code)
    (i : RgbImage) (hf : i.Formed) :
    ofDump .beauty .ppm (i.dumpBytes .beauty .ppm) = .ok i.quantized ∧ i.quantized.size = i.size ∧
      (∀ x y, i.quantized.pixel? x y = (i.pixel? x y).map fun c => c.map fun v => gammaDecode (gammaEncode v)) ∧
      i.quantized.dumpBytes .beauty .ppm = i.dumpBytes .beauty .ppm ∧
      ((∀ c ∈ i.pixels, ∀ v ∈ c.toList, ∃ code, v = gammaDecode code) →
        ofDump .beauty .ppm (i.dumpBytes .beauty .ppm) = .ok i) := by
  have hread : ofDump .beauty .ppm (i.dumpBytes .beauty .ppm) = .ok i.quantized := ofDump_dumpBytes_eq hf .beauty .ppm
  have hagain : i.quantized.dump .beauty .ppm = i.dump .beauty .ppm := dump_mapColors (fun _ => hcodes _) i
  refine ⟨hread, rfl, pixel?_mapColors _ i, ?_, fun h => ?_⟩
  · rw [dumpBytes, hagain, dumpBytes]
  · rw [hread, quantized_of_codes hcodes h]

/-- Two pixels below zero, between codes, above one and without a number. Their codes are read back as black, the
value of code 186, white, and black again for what is no number; an infinity is white. A pixel of three codes is read
back as it is. -/
theorem RgbImage.ofDump_dumpBytes_extremes :
    let i : RgbImage := ⟨2, 1, #[⟨⟨0xbf800000⟩, ⟨0x3f000000⟩, ⟨0x40800000⟩⟩, ⟨⟨0x7fc00001⟩, .one, ⟨0x7f800000⟩⟩]⟩
    let code := @gammaDecode Powers.bySeries
    let shown : RgbImage := ⟨2, 1, #[⟨code 0, code 186, code 255⟩, ⟨code 0, code 255, code 255⟩]⟩
    let coded : RgbImage := ⟨1, 1, #[⟨code 0, code 7, code 255⟩]⟩
    @ofDump Powers.bySeries .beauty .ppm (@dumpBytes Powers.bySeries i .beauty .ppm) = .ok shown ∧
      @dumpBytes Powers.bySeries shown .beauty .ppm = @dumpBytes Powers.bySeries i .beauty .ppm ∧
      @ofDump Powers.bySeries .beauty .ppm (@dumpBytes Powers.bySeries coded .beauty .ppm) = .ok coded := by
  intro i code shown coded
  obtain ⟨hread, -, -, hagain, -⟩ :=
    @ofDump_dumpBytes_quantized Powers.bySeries Powers.gammaEncode_gammaDecode i ⟨rfl, by decide, by decide⟩
  have hshown : @quantized Powers.bySeries i = shown := by decide +kernel
  rw [hshown] at hread hagain
  refine ⟨hread, hagain, ?_⟩
  obtain ⟨-, -, -, -, hcoded⟩ :=
    @ofDump_dumpBytes_quantized Powers.bySeries Powers.gammaEncode_gammaDecode coded ⟨rfl, by decide, by decide⟩
  refine hcoded fun c hc v hv => ?_
  simp only [coded, List.mem_toArray, List.mem_singleton] at hc
  subst hc
  simp only [Rgb.toList, List.mem_cons, List.not_mem_nil, or_false] at hv
  obtain rfl | rfl | rfl := hv
  · exact ⟨0, rfl⟩
  · exact ⟨7, rfl⟩
  · exact ⟨255, rfl⟩

end ProgressiveFrame
