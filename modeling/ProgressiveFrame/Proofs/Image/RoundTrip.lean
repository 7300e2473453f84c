import ProgressiveFrame.Proofs.Binary32.Natural
import ProgressiveFrame.Proofs.Image.Dump

/-!
# What dumps promise to keep

* `RgbImage.ofDump_dumpBytes`: a float dump keeps each colour bit for bit, both formats keep ray counts as far as their
  words reach, and every dump can be read and keeps the size.
-/

namespace ProgressiveFrame.RgbImage

variable {i : RgbImage} {c : Rgb Binary32} {n : Nat}

/-- The image whose colours have the red component in all three. -/
def spreadRed (i : RgbImage) : RgbImage := i.mapColors fun c => .uniform c.r

theorem mapColors_congr {f g : Rgb Binary32 → Rgb Binary32} (h : ∀ c ∈ i.pixels, f c = g c) :
    i.mapColors f = i.mapColors g :=
  congrArg (RgbImage.mk i.width i.height) (Array.map_congr_left h)

theorem mapColors_id (i : RgbImage) : i.mapColors id = i := congrArg (RgbImage.mk i.width i.height) (Array.map_id _)

/-- A ray count is whole. -/
theorem wholeCount_eq (h : c.r.IsNatural n) : wholeCount c = c.r := by
  rw [wholeCount, Binary32.max_zero h.isNaN h.isNegative, h.trunc_eq]

/-- A ray count up to 255 is one of the codes. -/
theorem ofUInt8_toUInt8_min (h : c.r.IsNatural n) (hn : n ≤ 255) :
    Binary32.ofUInt8 (Scalar.min c.r (Scalar.ofNat 255)).toUInt8 = c.r := by
  have hcode : (UInt8.ofNat n).toNat = n := UInt8.toNat_ofNat_of_lt' (Nat.lt_succ_of_le hn)
  have hbyte := Binary32.IsNatural.ofUInt8 (.ofNat n)
  rw [hcode] at hbyte
  rw [h.unique hbyte, Binary32.toUInt8_min_ofUInt8]

/-- What dumps promise to keep. A float dump of colours is read back as the same image, whatever the bits of the
numbers. A float dump of ray counts is read back as the counts, and so is a pixel map of counts up to 255. Every dump
of every image can be read, and gives an image of the same size. -/
theorem ofDump_dumpBytes (i : RgbImage) (hf : i.Formed) :
    ofDump .beauty .fbd (i.dumpBytes .beauty .fbd) = .ok i ∧
    ((∀ c ∈ i.pixels, ∃ n, c.r.IsNatural n) →
      ofDump .numSample .fbd (i.dumpBytes .numSample .fbd) = .ok i.spreadRed) ∧
    ((∀ c ∈ i.pixels, ∃ n ≤ 255, c.r.IsNatural n) →
      ofDump .numSample .ppm (i.dumpBytes .numSample .ppm) = .ok i.spreadRed) ∧
    ∀ kind format, ∃ j, ofDump kind format (i.dumpBytes kind format) = .ok j ∧ j.size = i.size := by
  refine ⟨?_, fun hcounts => ?_, fun hcounts => ?_, fun kind format => ⟨_, ofDump_dumpBytes_eq hf kind format, rfl⟩⟩
  · rw [ofDump_dumpBytes_eq hf]
    exact congrArg Except.ok (mapColors_id i)
  · rw [ofDump_dumpBytes_eq hf]
    refine congrArg Except.ok (mapColors_congr fun c hc => ?_)
    obtain ⟨n, hn⟩ := hcounts c hc
    exact congrArg Rgb.uniform (wholeCount_eq hn)
  · rw [ofDump_dumpBytes_eq hf]
    refine congrArg Except.ok (mapColors_congr fun c hc => ?_)
    obtain ⟨n, hle, hn⟩ := hcounts c hc
    rw [keptColor, wholeCount_eq hn, ofUInt8_toUInt8_min hn hle]

/-- Two pixels with the counts 3 and 200, beside a pattern that is no number, a negative zero and an infinity. -/
theorem ofDump_dumpBytes_twoCounts :
    let i : RgbImage := ⟨1, 2, #[⟨⟨0x40400000⟩, ⟨0x7fc00001⟩, ⟨0x80000000⟩⟩, ⟨⟨0x43480000⟩, ⟨0x7f800000⟩, .one⟩]⟩
    ofDump .beauty .fbd (i.dumpBytes .beauty .fbd) = .ok i ∧
      ofDump .numSample .fbd (i.dumpBytes .numSample .fbd) = .ok i.spreadRed ∧
      ofDump .numSample .ppm (i.dumpBytes .numSample .ppm) = .ok i.spreadRed := by
  intro i
  obtain ⟨hbeauty, hfloats, hcodes, -⟩ := ofDump_dumpBytes i ⟨rfl, by decide, by decide⟩
  have hcounts : ∀ c ∈ i.pixels, ∃ n ≤ 255, c.r.IsNatural n := by
    intro c hc
    simp only [i, List.mem_toArray, List.mem_cons, List.not_mem_nil, or_false] at hc
    rcases hc with rfl | rfl
    · exact ⟨3, by decide, by decide, by decide, by decide⟩
    · exact ⟨200, by decide, by decide, by decide, by decide⟩
  exact ⟨hbeauty, hfloats fun c hc => (hcounts c hc).imp fun _ h => h.2, hcodes hcounts⟩

end ProgressiveFrame.RgbImage
