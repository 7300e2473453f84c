import ProgressiveFrame.Proofs.Session.Readouts
import ProgressiveFrame.Proofs.Store.Placement

/-!
# What all readouts of a session have in common

However many sources are read out of a session one after another, each readout shows the same pixel at the same
position, and shows what it would have shown alone.

* `View.pixel?`: the pixel at a position, whichever the source.
* `View.Shows`: a readout shows the values of a slice there, and nothing else (`Slice.Fits.shows_untile`).
* `Controller.readout_of_slice`: so does the readout of every source that is there, filled where the latest pass may be
  sparse (`Controller.shown`).
* `Controller.readout_after_readout`: what was read out before makes no difference.
-/

namespace ProgressiveFrame

/-! ## Positions -/

namespace View

/-- The width and the height of what is shown. -/
def size (v : View) : Nat × Nat := (v.area?.map fun area => (area.width, area.height)).getD (0, 0)

/-- The pixel at a position, counted from the first one of the first row. -/
def pixel? (v : View) (position : Nat) : Option (Nat × Nat) :=
  v.area?.bind fun area =>
    if position < area.width * area.height then some (area.pixelAt v.orientation 1 position) else none

/-- At each position the readout has the values of a slice at the pixel that belongs there. -/
structure Shows (v : View) (r : Readout) (slice : Slice) : Prop where
  numChan : r.numChan = slice.count
  size : (r.width, r.height) = v.size
  size_data : r.data.size = r.width * r.height * slice.count
  value : ∀ position < r.width * r.height, ∃ pixel, v.pixel? position = some pixel ∧
    ∀ k < slice.count, r.data[position * slice.count + k]? = slice.at? pixel k

end View

/-- A copy of a channel shows its slice. -/
theorem Slice.Fits.shows_untile {v : View} {slice : Slice} (h : slice.Fits ⟨v.viewport.width, v.viewport.height⟩) :
    v.Shows (slice.channel.untile v.orientation (v.roi.map (·.relativeTo v.viewport)) slice.first slice.last)
      slice := by
  have hlayout := h.sized.layout_eq
  have hnum := h.numChan_untile v.orientation (v.roi.map (·.relativeTo v.viewport))
  refine ⟨hnum, ?_, hnum ▸ Channel.size_data_untile .., fun position hposition => ?_⟩
  · rw [View.size, View.area?, Channel.untile, hlayout]
    split <;> rename_i ha <;> rw [ha] <;> rfl
  · cases ha : v.area? with
    | none =>
      rw [View.area?] at ha
      simp [Channel.untile, hlayout, ha] at hposition
    | some area =>
      have hlt : position < area.width * area.height := by
        rw [View.area?] at ha
        simpa [Channel.untile, hlayout, ha] using hposition
      refine ⟨area.pixelAt v.orientation 1 position, ?_, fun k hk => h.getElem?_untile ha v.orientation hlt hk⟩
      rw [View.pixel?, ha, Option.bind_some, if_pos hlt]

/-! ## Stores -/

namespace FrameStore

variable {s : FrameStore}

theorem setChannel_channel (s : FrameStore) (kind : WellKnown) : s.setChannel kind (s.channel kind) = s := by
  cases kind <;> rfl

theorem setAov_of_aovAt? {index : Nat} {aov : Aov} (h : s.aovAt? index = some aov) : s.setAov index aov = s := by
  have haovs : s.aovs.modify index (fun entry => (entry.1, aov)) = s.aovs := by
    refine Array.ext_getElem? fun other => ?_
    rw [Array.getElem?_modify]
    split
    · rename_i heq
      subst heq
      rw [aovAt?] at h
      obtain ⟨entry, hentry, rfl⟩ := Option.map_eq_some_iff.mp h
      rw [hentry]
      rfl
    · rfl
  rw [setAov, haovs]

/-- A readout that fills nothing leaves the store as it is. -/
theorem readout_plain (s : FrameStore) (source : ReadoutSource) (o : Orientation) (roi : Option Viewport) :
    (s.readout source o roi false).1 = s := by
  unfold readout
  cases hholder : s.holder source with
  | error e => rfl
  | ok held =>
    cases held with
    | wellKnown kind first last => exact s.setChannel_channel kind
    | owned index c => exact setAov_of_aovAt? (aovAt?_of_holder hholder)

/-- What was read out before makes no difference to a readout that fills as much. -/
theorem Formed.readout_after_readout (hf : s.Formed) (earlier source : ReadoutSource) (o o' : Orientation)
    (roi roi' : Option Viewport) (extrapolate : Bool) :
    ((s.readout earlier o' roi' extrapolate).1.readout source o roi extrapolate).2 =
      (s.readout source o roi extrapolate).2 := by
  cases extrapolate with
  | false => rw [readout_plain]
  -- What the earlier readout has filled are gaps, and this one fills them anew.
  | true => exact (hf.alike.readout_right earlier o' roi' true).readout_eq (fun _ _ _ _ => rfl) o roi

end FrameStore

/-! ## Sessions -/

namespace Controller

variable {μ : Type} {c : Controller μ}

/-- A slice as it is shown, filled where the latest pass may be sparse. -/
def shown (c : Controller μ) (slice : Slice) : Slice :=
  if c.session.coarsePass.needsExtrapolation then slice.extrapolate c.store.viewport c.session.roi else slice

@[simp] theorem count_shown (c : Controller μ) (slice : Slice) : (c.shown slice).count = slice.count := by
  unfold shown
  split <;> rfl

/-- A source that is there can be read out, and the readout shows it. -/
theorem readout_of_slice (hf : c.store.Formed) {source : ReadoutSource} {found : Slice}
    (h : c.store.slice source = .ok found) (o : Orientation) :
    ∃ r, (c.readout source o none).2 = .ok r ∧ (c.view o).Shows r (c.shown found) := by
  have hfits : (c.shown found).Fits c.store.layout := by
    unfold shown
    split
    · exact (hf.fits_slice h).extrapolate _ _
    · exact hf.fits_slice h
  exact ⟨_, FrameStore.readout_of_slice h o c.session.roi c.session.coarsePass.needsExtrapolation,
    hfits.shows_untile (v := c.view o)⟩

theorem readout_of_error {source : ReadoutSource} {e : FrameError} (h : c.store.slice source = .error e)
    (o : Orientation) : (c.readout source o none).2 = .error e :=
  congrArg Prod.snd (FrameStore.readout_of_error h o c.session.roi c.session.coarsePass.needsExtrapolation)

/-- What was read out before makes no difference. -/
theorem readout_after_readout (hf : c.store.Formed) (earlier source : ReadoutSource) (o o' : Orientation)
    (roi' : Option Viewport) :
    ((c.readout earlier o' roi').1.readout source o none).2 = (c.readout source o none).2 :=
  hf.readout_after_readout earlier source o o' c.session.roi _ c.session.coarsePass.needsExtrapolation

end Controller

end ProgressiveFrame
