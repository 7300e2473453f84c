import ProgressiveFrame.Proofs.Session.Run
import ProgressiveFrame.Proofs.Store.Readouts

/-!
# What a session shows

A session shows its beauty channel, filled first where the latest pass may be sparse. Which pixel a value of the
readout shows is decided by the row order, the viewport and the region of interest, its `View`.

* `Controller.formed_take`, `Controller.formed_readout`: messages and readouts keep every channel in the shape that the
  store gives it.
* `Controller.getElem?_beauty`: value `k` of a readout of the beauty channel is the one that the view says.
-/

namespace ProgressiveFrame

/-! ## Views -/

/-- What decides which pixel a value of a readout shows. -/
structure View where
  orientation : Orientation
  viewport : Viewport
  roi : Option Viewport
deriving DecidableEq

namespace View

/-- The part of the image that is shown. -/
def area? (v : View) : Option Viewport :=
  TileLayout.area? ⟨v.viewport.width, v.viewport.height⟩ (v.roi.map (·.relativeTo v.viewport))

/-- The pixel that value `k` of a readout shows, with `count` values for each pixel, and which of them it is. -/
def place? (v : View) (count k : Nat) : Option ((Nat × Nat) × Nat) :=
  v.area?.bind fun area =>
    if k < area.width * area.height * count then some (area.pixelAt v.orientation count k, k % count) else none

end View

namespace Controller

variable {μ : Type} {decoders : Decoders μ} {c : Controller μ}

theorem formed_take (hf : c.store.Formed) (m : Message) : (c.take decoders m).next.store.Formed :=
  store_take_induct FrameStore.formed_empty (fun _ q hf => hf.serve q) hf m

theorem formed_readout (hf : c.store.Formed) (source : ReadoutSource) (o : Orientation) (roi : Option Viewport) :
    (c.readout source o roi).1.store.Formed := hf.readout ..

@[simp] theorem session_readout (c : Controller μ) (source : ReadoutSource) (o : Orientation) (roi : Option Viewport) :
    (c.readout source o roi).1.session = c.session := rfl

/-- How a readout in this row order is seen. -/
def view (c : Controller μ) (o : Orientation) : View := ⟨o, c.store.viewport, c.session.roi⟩

/-- The region of interest in coordinates of the image. -/
def shownRoi (c : Controller μ) : Option Viewport := c.session.roi.map (·.relativeTo c.store.viewport)

/-- The beauty channel as it is shown, filled where the latest pass may be sparse. -/
def shownBeauty (c : Controller μ) : Channel :=
  if c.session.coarsePass.needsExtrapolation then (c.store.channel .beauty).extrapolate c.shownRoi
  else c.store.channel .beauty

/-- The readout of the beauty channel. -/
def beauty (c : Controller μ) (o : Orientation) : Readout :=
  c.shownBeauty.untile o c.shownRoi 0 WellKnown.beauty.numChan

/-- A value of a pixel of the beauty channel as it is shown. -/
def beautyAt? (c : Controller μ) (place : (Nat × Nat) × Nat) : Option Binary32 :=
  (c.shownBeauty.pixel? place.1.1 place.1.2).bind (·[place.2]?)

/-- The beauty channel can always be read out. -/
theorem readout_beauty (c : Controller μ) (o : Orientation) :
    c.readout (.channel .beauty) o none =
      ({ c with store := c.store.setChannel .beauty c.shownBeauty }, .ok (c.beauty o)) := rfl

theorem sized_shownBeauty (hf : c.store.Formed) : c.shownBeauty.Sized c.store.layout := by
  have hs := hf.alike.sized .beauty
  unfold shownBeauty
  split
  · exact ((Channel.Resembles.refl true _).extrapolate_right _).sized hs
  · exact hs

theorem numChan_shownBeauty (hf : c.store.Formed) : c.shownBeauty.numChan = WellKnown.beauty.numChan := by
  unfold shownBeauty
  split
  · exact (Channel.numChan_extrapolate ..).trans (hf.numChan .beauty)
  · exact hf.numChan .beauty

/-- Value `k` of a readout of the beauty channel is the one that the view says. -/
theorem getElem?_beauty (hf : c.store.Formed) (o : Orientation) (k : Nat) :
    (c.beauty o).data[k]? = ((c.view o).place? WellKnown.beauty.numChan k).bind c.beautyAt? := by
  have hs := sized_shownBeauty hf
  have hnum := numChan_shownBeauty hf
  have hfirst : min 0 c.shownBeauty.numChan = 0 := Nat.zero_min _
  have hcount : min WellKnown.beauty.numChan c.shownBeauty.numChan - min 0 c.shownBeauty.numChan =
      WellKnown.beauty.numChan := by rw [hfirst, hnum, Nat.min_self, Nat.sub_zero]
  have hview : (c.view o).area? = c.store.layout.area? c.shownRoi := rfl
  rw [beauty, View.place?, hview]
  cases ha : c.store.layout.area? c.shownRoi with
  | none => simp [Channel.untile, hs.layout_eq, ha]
  | some area =>
    rw [Option.bind_some]
    split
    · rename_i hk
      rw [Channel.getElem?_untile hs ha o hcount hk, hfirst, Nat.zero_add]
      rfl
    · rename_i hk
      have hsize : (c.shownBeauty.untile o c.shownRoi 0 WellKnown.beauty.numChan).data.size =
          area.width * area.height * WellKnown.beauty.numChan := by
        simp only [Channel.untile, hs.layout_eq, ha, hcount, Array.size_map, Array.size_range]
      rw [Array.getElem?_eq_none (by omega)]
      rfl

end Controller

end ProgressiveFrame
