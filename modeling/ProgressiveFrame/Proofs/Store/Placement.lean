import ProgressiveFrame.Limits
import ProgressiveFrame.Proofs.Store.Enumeration

/-!
# Where a readout places pixels

A readout shows a part of the viewport, in rows of pixels, and of each pixel some values of one channel.

* `Slice`, `FrameStore.slice`: the channel that a source stands for, and which of its values.
* `Viewport.shown?`: the area that is shown, the region of interest as far as it lies in the viewport.
* `Readout.Shows`: each value of the slice at each pixel of the area stands where the row order says, and nothing else.
* `TileLayout.exists_area?`, `area?_eq_none`: a channel finds the same area in its own coordinates, which start at the
  lower left corner of the viewport. So a copy of a channel shows its slice (`Channel.shows_untile`).
* `FrameStore.readout_places`: so does every readout of every store, of the channel as it is or once it is filled.
-/

namespace ProgressiveFrame

/-- The area of a viewport that a readout shows. -/
def Viewport.shown? (v : Viewport) : Option Viewport → Option Viewport
  | some roi => roi.intersect? v
  | none => some v

/-- The values `first` to `last - 1` of each pixel of a channel. -/
structure Slice where
  channel : Channel
  first : Nat
  last : Nat

namespace Slice

/-- The number of values of a pixel. -/
def count (slice : Slice) : Nat := slice.last - slice.first

/-- Value `k` of the slice at a pixel, which has the coordinates of the viewport. -/
def value? (slice : Slice) (v : Viewport) (x y : Int) (k : Nat) : Option Binary32 :=
  (slice.channel.pixel? (x - v.minX).toNat (y - v.minY).toNat).bind (·[slice.first + k]?)

/-- Value `k` of the slice at a pixel, counted from the lower left corner. -/
def at? (slice : Slice) (pixel : Nat × Nat) (k : Nat) : Option Binary32 :=
  (slice.channel.pixel? pixel.1 pixel.2).bind (·[slice.first + k]?)

/-- The slice of the channel once it is filled in an area of the viewport. -/
def extrapolate (slice : Slice) (v : Viewport) (roi : Option Viewport) : Slice :=
  { slice with channel := slice.channel.extrapolate (roi.map (·.relativeTo v)) }

/-- The channel has this layout and all values of the slice. -/
structure Fits (slice : Slice) (layout : TileLayout) : Prop where
  sized : slice.channel.Sized layout
  last_le : slice.last ≤ slice.channel.numChan

theorem Fits.extrapolate {slice : Slice} {layout : TileLayout} (h : slice.Fits layout) (v : Viewport)
    (roi : Option Viewport) : (slice.extrapolate v roi).Fits layout where
  sized := ((Channel.Resembles.refl true _).extrapolate_right _).sized h.sized
  last_le := by
    rw [Slice.extrapolate, Channel.numChan_extrapolate]
    exact h.last_le

end Slice

/-- The readout shows a slice. Where the region of interest lies outside the viewport it has neither size nor data. -/
structure Readout.Shows (r : Readout) (v : Viewport) (o : Orientation) (roi : Option Viewport) (slice : Slice) :
    Prop where
  numChan : r.numChan = slice.count
  outside : v.shown? roi = none → r.width = 0 ∧ r.height = 0 ∧ r.data = #[]
  size : ∀ area, v.shown? roi = some area → r.width = area.width ∧ r.height = area.height
  size_data : r.data.size = r.width * r.height * r.numChan
  /-- The rows go from the bottom up or from the top down. -/
  value : ∀ area, v.shown? roi = some area → ∀ row < area.height, ∀ column < area.width, ∀ k < slice.count,
    ∃ value, r.data[(row * area.width + column) * slice.count + k]? = some value ∧
      slice.value? v (area.minX + column)
        (match o with | .bottomUp => area.minY + row | .topDown => area.maxY - row) k = some value

/-! ## Areas -/

namespace Viewport

variable {v w base : Viewport}

theorem isEmpty_relativeTo (v base : Viewport) : (v.relativeTo base).isEmpty = v.isEmpty := by
  rw [isEmpty, width_relativeTo, height_relativeTo, isEmpty]

theorem common_relativeTo (v w base : Viewport) :
    (v.relativeTo base).common (w.relativeTo base) = (v.common w).relativeTo base := by
  simp only [common, relativeTo, mk.injEq]
  omega

theorem intersect?_relativeTo (v w base : Viewport) :
    (v.relativeTo base).intersect? (w.relativeTo base) = (v.intersect? w).map (·.relativeTo base) := by
  rw [intersect?, common_relativeTo, isEmpty_relativeTo, intersect?]
  split <;> rfl

theorem intersect?_of_isEmpty (h : w.isEmpty = true) : v.intersect? w = none := by
  rw [intersect?, if_pos]
  rw [isEmpty_iff] at h ⊢
  simp only [common]
  omega

/-- In its own coordinates, a viewport starts at the origin. -/
theorem relativeTo_self (h : v.isEmpty = false) : v.relativeTo v = ⟨0, 0, v.width - 1, v.height - 1⟩ := by
  have hne := mt isEmpty_iff.mpr (Bool.eq_false_iff.mp h)
  simp only [relativeTo, width, height, mk.injEq]
  omega

theorem lt_of_isMeasurable (hv : v.isMeasurable = true) : v.width < 0x80000000 ∧ v.height < 0x80000000 := by
  simp only [isMeasurable, isCountable, isSignedWord, Bool.and_eq_true, decide_eq_true_eq] at hv
  simp only [width, height]
  omega

end Viewport

namespace TileLayout

variable {v area : Viewport} {roi : Option Viewport}

theorem bounds_of_isMeasurable (hv : v.isMeasurable = true) :
    bounds ⟨v.width, v.height⟩ = ⟨0, 0, v.width - 1, v.height - 1⟩ :=
  Viewport.ofSize_of_lt (Viewport.lt_of_isMeasurable hv).1 (Viewport.lt_of_isMeasurable hv).2

/-- A channel finds a region of interest where the viewport has it. -/
theorem area?_relativeTo (hv : v.isMeasurable = true) (roi : Viewport) :
    area? ⟨v.width, v.height⟩ (some (roi.relativeTo v)) = (roi.intersect? v).map (·.relativeTo v) := by
  rw [area?, bounds_of_isMeasurable hv]
  cases hempty : v.isEmpty with
  | false => rw [← Viewport.relativeTo_self hempty, Viewport.intersect?_relativeTo]
  | true =>
    have hbounds : (Viewport.mk 0 0 (v.width - 1) (v.height - 1)).isEmpty = true := by
      simp only [Viewport.isEmpty, Bool.or_eq_true, beq_iff_eq] at hempty
      rw [Viewport.isEmpty_iff]
      simp only
      omega
    rw [Viewport.intersect?_of_isEmpty hempty, Viewport.intersect?_of_isEmpty hbounds]
    rfl

theorem area?_eq_none (hv : v.isMeasurable = true) (h : v.shown? roi = none) :
    area? ⟨v.width, v.height⟩ (roi.map (·.relativeTo v)) = none := by
  cases roi with
  | none => cases h
  | some roi =>
    rw [Viewport.shown?] at h
    rw [Option.map_some, area?_relativeTo hv, h]
    rfl

/-- The area that a channel finds has the size of the one that is shown, and its place when it has pixels. -/
theorem exists_area? (hv : v.isMeasurable = true) (h : v.shown? roi = some area) :
    ∃ found, area? ⟨v.width, v.height⟩ (roi.map (·.relativeTo v)) = some found ∧ found.width = area.width ∧
      found.height = area.height ∧ (area.isEmpty = false → found = area.relativeTo v) := by
  cases roi with
  | none =>
    cases h
    refine ⟨bounds ⟨v.width, v.height⟩, rfl, ?_⟩
    rw [bounds_of_isMeasurable hv]
    refine ⟨?_, ?_, fun hempty => (Viewport.relativeTo_self hempty).symm⟩
    · simp only [Viewport.width]
      omega
    · simp only [Viewport.height]
      omega
  | some roi =>
    rw [Viewport.shown?] at h
    rw [Option.map_some, area?_relativeTo hv, h]
    exact ⟨_, rfl, Viewport.width_relativeTo .., Viewport.height_relativeTo .., fun _ => rfl⟩

end TileLayout

/-! ## One channel -/

/-- The position of a pixel in rows of pixels. -/
theorem position_lt {row column width height : Nat} (hrow : row < height) (hcolumn : column < width) :
    row * width + column < width * height := by
  calc row * width + column < (row + 1) * width := by rw [Nat.succ_mul]; omega
    _ ≤ height * width := Nat.mul_le_mul_right width hrow
    _ = width * height := Nat.mul_comm height width

/-- The place of a value among the values of pixels. -/
theorem place_lt {position k pixels count : Nat} (hposition : position < pixels) (hk : k < count) :
    position * count + k < pixels * count := by
  calc position * count + k < (position + 1) * count := by rw [Nat.succ_mul]; omega
    _ ≤ pixels * count := Nat.mul_le_mul_right count hposition

namespace Slice.Fits

variable {slice : Slice} {layout : TileLayout} {roi : Option Viewport} {area : Viewport}

theorem count_eq (h : slice.Fits layout) :
    min slice.last slice.channel.numChan - min slice.first slice.channel.numChan = slice.count := by
  have hlast := h.last_le
  rw [Slice.count]
  omega

theorem numChan_untile (h : slice.Fits layout) (o : Orientation) (roi : Option Viewport) :
    (slice.channel.untile o roi slice.first slice.last).numChan = slice.count := by
  rw [Channel.untile]
  split <;> exact h.count_eq

/-- A copy has the values of one pixel after those of another. -/
theorem getElem?_untile (h : slice.Fits layout) (ha : layout.area? roi = some area) (o : Orientation) {position k : Nat}
    (hposition : position < area.width * area.height) (hk : k < slice.count) :
    (slice.channel.untile o roi slice.first slice.last).data[position * slice.count + k]? =
      slice.at? (area.pixelAt o 1 position) k := by
  have hpixel : area.pixelAt o slice.count (position * slice.count + k) = area.pixelAt o 1 position := by
    rw [Viewport.pixelAt, Viewport.pixelAt, div_of_slot hk, Nat.div_one]
  have hfirst : min slice.first slice.channel.numChan = slice.first := by
    have hlast := h.last_le
    rw [Slice.count] at hk
    omega
  rw [Channel.getElem?_untile h.sized ha o h.count_eq (place_lt hposition hk), hpixel, hfirst, mod_of_slot hk, at?]

end Slice.Fits

/-- In a channel, the pixel in the rows of an area is that at its column in its row. -/
theorem Viewport.pixelAt_relativeTo (area v : Viewport) (o : Orientation) {row column : Nat}
    (hcolumn : column < area.width) : (area.relativeTo v).pixelAt o 1 (row * area.width + column) =
      ((area.minX + column - v.minX).toNat, (o.line area row - v.minY).toNat) := by
  have hx : (area.relativeTo v).minX + column = area.minX + column - v.minX := by
    simp only [relativeTo]
    omega
  have hline : o.line (area.relativeTo v) row = o.line area row - v.minY := by
    cases o with
    | bottomUp => simp only [Orientation.line, relativeTo]; omega
    | topDown => simp only [Orientation.line, relativeTo]; omega
  rw [pixelAt, width_relativeTo, Nat.div_one, div_of_slot hcolumn, mod_of_slot hcolumn, hx, hline]

/-- A copy of a channel of a viewport shows its slice. -/
theorem Channel.shows_untile {v : Viewport} (hv : v.isMeasurable = true) {slice : Slice}
    (hfits : slice.Fits ⟨v.width, v.height⟩) (o : Orientation) (roi : Option Viewport) :
    (slice.channel.untile o (roi.map (·.relativeTo v)) slice.first slice.last).Shows v o roi slice := by
  have hlayout := hfits.sized.layout_eq
  refine ⟨hfits.numChan_untile o _, fun h => ?_, fun area h => ?_, Channel.size_data_untile .., fun area h => ?_⟩
  · simp [untile, hlayout, TileLayout.area?_eq_none hv h]
  · obtain ⟨found, hfound, hwidth, hheight, -⟩ := TileLayout.exists_area? hv h
    simp [untile, hlayout, hfound, hwidth, hheight]
  · intro row hrow column hcolumn k hk
    obtain ⟨found, hfound, hwidth, hheight, hplace⟩ := TileLayout.exists_area? hv h
    obtain rfl := hplace (by simp [Viewport.isEmpty]; omega)
    have hposition := position_lt hrow hcolumn
    have hsize : (row * area.width + column) * slice.count + k <
        (slice.channel.untile o (roi.map (·.relativeTo v)) slice.first slice.last).data.size := by
      simpa [untile, hlayout, hfound, hfits.count_eq] using place_lt hposition hk
    refine ⟨_, Array.getElem?_eq_getElem hsize, ?_⟩
    rw [← Array.getElem?_eq_getElem hsize, hfits.getElem?_untile hfound o (by rwa [hwidth, hheight]) hk,
      Viewport.pixelAt_relativeTo area v o hcolumn]
    cases o <;> rfl

/-! ## Sources -/

namespace FrameStore

variable {s : FrameStore} {source : ReadoutSource} {found : Slice}

/-- What an AOV shows: the channel of its own, the colour or the alpha of beauty, or one of the other channels. -/
def aovSlice (s : FrameStore) : Aov → Slice
  | .owned c => ⟨c, 0, c.numChan⟩
  | .reference .beauty => ⟨s.channel .beauty, 0, 3⟩
  | .reference .alpha => ⟨s.channel .beauty, 3, 4⟩
  | .reference .heatMap => ⟨s.channel .heatMap, 0, 1⟩
  | .reference .weight => ⟨s.channel .weight, 0, 1⟩

/-- What a source shows, if it is there. -/
def slice (s : FrameStore) : ReadoutSource → Except FrameError Slice
  | .channel .beauty => .ok ⟨s.channel .beauty, 0, 4⟩
  | .channel .beautyOdd => .ok ⟨s.channel .beautyOdd, 0, 4⟩
  | .channel kind => .ok ⟨s.channel kind, 0, 1⟩
  | .aovIndex index =>
    match s.aovAt? index with
    | some aov => .ok (s.aovSlice aov)
    | none => .error (.aovIndexOutOfRange index)
  | .aovName name =>
    match s.aov? name with
    | some aov => .ok (s.aovSlice aov)
    | none => .error (.unknownAov name)

/-- What a holder shows. -/
def Holder.slice (s : FrameStore) : Holder → Slice
  | .wellKnown kind first last => ⟨s.channel kind, first, last⟩
  | .owned _ c => ⟨c, 0, c.numChan⟩

theorem slice_ofAov (s : FrameStore) (index : Nat) (aov : Aov) :
    (Holder.ofAov index aov).slice s = s.aovSlice aov := by
  cases aov with
  | owned c => rfl
  | reference kind => cases kind <;> rfl

theorem slice_eq_map_holder (s : FrameStore) (source : ReadoutSource) :
    s.slice source = (s.holder source).map (Holder.slice s) := by
  cases source with
  | channel kind => cases kind <;> rfl
  | aovIndex index =>
    rw [slice, holder]
    cases s.aovAt? index with
    | none => rfl
    | some aov => exact congrArg Except.ok (s.slice_ofAov index aov).symm
  | aovName name =>
    rw [slice, holder]
    cases hi : s.aovIndex? name with
    | none =>
      rw [aov?, hi]
      rfl
    | some index =>
      rw [← aovAt?_of_aovIndex? hi]
      simp only
      cases s.aovAt? index with
      | none => rfl
      | some aov => exact congrArg Except.ok (s.slice_ofAov index aov).symm

/-- A readout copies the slice of its source, once the channel is filled if that is asked for. -/
theorem readout_of_slice (h : s.slice source = .ok found) (o : Orientation) (roi : Option Viewport)
    (extrapolate : Bool) :
    let shown := if extrapolate then found.extrapolate s.viewport roi else found
    (s.readout source o roi extrapolate).2 =
      .ok (shown.channel.untile o (roi.map (·.relativeTo s.viewport)) shown.first shown.last) := by
  rw [slice_eq_map_holder] at h
  unfold readout
  cases hholder : s.holder source with
  | error e => rw [hholder] at h; cases h
  | ok held =>
    rw [hholder] at h
    cases h
    cases held with
    | wellKnown kind first last => cases extrapolate <;> rfl
    | owned index c =>
      cases extrapolate with
      | false => rfl
      | true => simp [Holder.slice, Slice.extrapolate]

theorem readout_of_error {e : FrameError} (h : s.slice source = .error e) (o : Orientation) (roi : Option Viewport)
    (extrapolate : Bool) : s.readout source o roi extrapolate = (s, .error e) := by
  rw [slice_eq_map_holder] at h
  unfold readout
  cases hholder : s.holder source with
  | ok held => rw [hholder] at h; cases h
  | error e' => rw [hholder] at h; cases h; rfl

theorem Formed.fits_channel (hf : s.Formed) (kind : WellKnown) {first last : Nat} (hlast : last ≤ kind.numChan) :
    (Slice.mk (s.channel kind) first last).Fits s.layout :=
  ⟨hf.alike.sized kind, by rwa [hf.numChan]⟩

theorem Formed.fits_aovSlice (hf : s.Formed) {index : Nat} {aov : Aov} (hat : s.aovAt? index = some aov) :
    (s.aovSlice aov).Fits s.layout := by
  cases aov with
  | owned c =>
    have hshape := hf.alike.aov index
    rw [hat] at hshape
    cases hshape with
    | some hshape =>
      cases hshape with
      | owned sized _ => exact ⟨sized, Nat.le_refl _⟩
  | reference kind => cases kind <;> exact hf.fits_channel _ (by decide)

/-- What a source shows is there to be shown. -/
theorem Formed.fits_slice (hf : s.Formed) (h : s.slice source = .ok found) : found.Fits s.layout := by
  cases source with
  | channel kind => cases kind <;> cases h <;> exact hf.fits_channel _ (by decide)
  | aovIndex index =>
    rw [slice] at h
    cases hat : s.aovAt? index with
    | none => rw [hat] at h; cases h
    | some aov => rw [hat] at h; cases h; exact hf.fits_aovSlice hat
  | aovName name =>
    rw [slice] at h
    cases ha : s.aov? name with
    | none => rw [ha] at h; cases h
    | some aov =>
      rw [ha] at h
      cases h
      obtain ⟨index, -, hat⟩ := exists_aovIndex? ha
      exact hf.fits_aovSlice hat

/-- An AOV is read out by its name as it is by its index. -/
theorem readout_aovName {index : Nat} {name : String} (hi : s.aovIndex? name = some index) (o : Orientation)
    (roi : Option Viewport) (extrapolate : Bool) :
    s.readout (.aovName name) o roi extrapolate = s.readout (.aovIndex index) o roi extrapolate := by
  obtain ⟨aov, hat⟩ : ∃ aov, s.aovAt? index = some aov := by
    obtain ⟨hlt, -⟩ := Array.findIdx?_eq_some_iff_getElem.mp hi
    exact ⟨s.aovs[index].2, by rw [aovAt?, Array.getElem?_eq_getElem hlt, Option.map_some]⟩
  simp only [readout, holder, hi, hat]

@[simp] theorem viewport_readout (s : FrameStore) (source : ReadoutSource) (o : Orientation) (roi : Option Viewport)
    (extrapolate : Bool) : (s.readout source o roi extrapolate).1.viewport = s.viewport := by
  unfold readout
  cases s.holder source with
  | error e => rfl
  | ok held => cases held <;> rfl

@[simp] theorem viewport_afterAll (s : FrameStore) (steps : List StoreStep) :
    (s.afterAll steps).viewport = s.viewport := by
  induction steps generalizing s with
  | nil => rfl
  | cons step steps ih =>
    refine (ih _).trans ?_
    cases step with
    | readout source o roi extrapolate => exact s.viewport_readout source o roi extrapolate
    | request q =>
      cases q with
      | write w => exact s.viewport_write w
      | reset mode => rfl

/-- Readouts place every pixel. Take any store that can come about, over a viewport whose size can be counted. What a
source shows, a readout shows at its places in the area; one that extrapolates shows the same of the channel once it is
filled there. A source that is not there is an error. An AOV can be named by its index or by its name. -/
theorem readout_places (v : Viewport) (hv : v.isMeasurable = true) (steps : List StoreStep) (source : ReadoutSource)
    (o : Orientation) (roi : Option Viewport) :
    let s := (FrameStore.empty v).afterAll steps
    (∀ found, s.slice source = .ok found →
        (∃ r, (s.readout source o roi false).2 = .ok r ∧ r.Shows v o roi found) ∧
          ∃ r, (s.readout source o roi true).2 = .ok r ∧ r.Shows v o roi (found.extrapolate v roi)) ∧
      (∀ e, s.slice source = .error e → ∀ extrapolate, s.readout source o roi extrapolate = (s, .error e)) ∧
      ∀ index name, s.aovName? index = some name → ∀ extrapolate,
        s.readout (.aovIndex index) o roi extrapolate = s.readout (.aovName name) o roi extrapolate := by
  intro s
  have hf : s.Formed := (formed_empty v).afterAll steps
  have hlists : s.Lists (StoreStep.sightings steps) := (Lists.empty v).afterAll steps
  have hviewport : s.viewport = v := viewport_afterAll ..
  refine ⟨fun found h => ?_, fun e h => readout_of_error h o roi, fun index name hname x => ?_⟩
  · have hfits : found.Fits ⟨v.width, v.height⟩ := by
      have hfits := hf.fits_slice h
      rwa [layout, hviewport] at hfits
    have hplain := readout_of_slice h o roi false
    have hfilled := readout_of_slice h o roi true
    rw [hviewport] at hplain hfilled
    exact ⟨⟨_, hplain, Channel.shows_untile hv hfits o roi⟩,
      ⟨_, hfilled, Channel.shows_untile hv (hfits.extrapolate v roi) o roi⟩⟩
  · have hlt : index < s.aovs.size := by
      rw [aovName?, Option.map_eq_some_iff] at hname
      obtain ⟨_, hentry, -⟩ := hname
      exact (Array.getElem?_eq_some_iff.mp hentry).1
    exact (readout_aovName (hlists.aovIndex?_eq_some_iff.mpr ⟨hlt, hname⟩) o roi x).symm

/-- The upper right one of six pixels has a colour, and its alpha is read out of a region that juts out to the right.
The alias has index 0 and a name. -/
theorem readout_places_alpha :
    let v : Viewport := ⟨-1, 5, 1, 6⟩
    let roi : Viewport := ⟨0, 5, 9, 6⟩
    let s := (FrameStore.empty v).afterAll
      [.request (.write (.update .beauty (.onePixel ⟨3, 2⟩ 2 1 #[⟨1⟩, ⟨2⟩, ⟨3⟩, ⟨4⟩]))),
        .request (.write (.reference "alpha" .alpha))]
    v.isMeasurable = true ∧ s.slice (.aovIndex 0) = .ok ⟨s.channel .beauty, 3, 4⟩ ∧
      (∃ r, (s.readout (.aovName "alpha") .topDown (some roi) false).2 = .ok r ∧
        (r.width, r.height, r.numChan) = (2, 2, 1) ∧ r.data[1]? = some ⟨4⟩) ∧
      s.readout (.aovName "depth") .topDown (some roi) true = (s, .error (.unknownAov "depth")) := by
  intro v roi s
  have hv : v.isMeasurable = true := by decide
  have hslice : s.slice (.aovIndex 0) = .ok ⟨s.channel .beauty, 3, 4⟩ := by
    have hkind : (s.aovAt? 0).map Aov.kind = some (.reference .alpha) := by decide +kernel
    obtain ⟨aov, hat, hkind⟩ := Option.map_eq_some_iff.mp hkind
    cases aov with
    | owned c => cases hkind
    | reference kind =>
      cases hkind
      rw [slice, hat]
      rfl
  have hunknown : s.slice (.aovName "depth") = .error (.unknownAov "depth") := by
    have hnone : (s.aov? "depth").map Aov.kind = none := by decide +kernel
    rw [slice, Option.map_eq_none_iff.mp hnone]
  obtain ⟨hshows, -, hname⟩ := readout_places v hv _ (.aovIndex 0) .topDown (some roi)
  obtain ⟨⟨r, hr, hplaced⟩, -⟩ := hshows _ hslice
  have hsize := hplaced.size ⟨0, 5, 1, 6⟩ (by decide)
  obtain ⟨value, hvalue, hpixel⟩ := hplaced.value ⟨0, 5, 1, 6⟩ (by decide) 0 (by decide) 1 (by decide) 0 (by decide)
  have hshown : Slice.value? ⟨s.channel .beauty, 3, 4⟩ v 1 6 0 = some ⟨4⟩ := by decide +kernel
  cases hshown.symm.trans hpixel
  refine ⟨hv, hslice, ⟨r, ?_, ?_, hvalue⟩,
    (readout_places v hv _ (.aovName "depth") .topDown (some roi)).2.1 _ hunknown true⟩
  · rw [← hname 0 "alpha" (by decide +kernel)]
    exact hr
  · rw [hsize.1, hsize.2, hplaced.numChan]
    rfl

end FrameStore

end ProgressiveFrame
