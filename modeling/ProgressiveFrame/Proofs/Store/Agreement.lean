import ProgressiveFrame.Proofs.Store.Readouts

/-!
# Stores that agree

Two stores may have had different pasts and still hold the same pixels.

* `Channel.Agrees`: channels that are the same but for their encodings and, unless they are watched, their values.
  What is done to both of them keeps them so.
* `Channel.Sized.reset_eq`, `resetCoverage_eq`: a channel that has been reset remembers of its past its encodings
  and, at most, its values. So two stores of one viewport agree once they have been reset (`FrameStore.agrees_reset`).
* `FrameStore.Agrees`: stores whose well-known channels agree. Updates are answered alike in both of them
  (`Agrees.update`), and a readout of a watched channel gives the same (`Agrees.readout`).
-/

namespace ProgressiveFrame

/-- A set without its pixels is the empty one. -/
theorem PixelMask.clear_eq_empty {m : PixelMask} {layout : TileLayout} (hl : m.layout = layout)
    (hs : m.bits.size = layout.capacity) : m.clear = .empty layout := by
  rw [clear, empty, Array.map_const', hs, hl]

namespace Channel

variable {c c' : Channel} {layout : TileLayout} {watched : Bool}

/-- The channels are the same but for their encodings and, unless they are `watched`, their values. -/
structure Agrees (watched : Bool) (c c' : Channel) : Prop where
  eq_with : c' = { c with data := c'.data, precision := c'.precision }
  size_data : c'.data.size = c.data.size
  data : watched = true → c'.data = c.data

/-! ## Resets -/

/-- A channel that has been reset is empty, but for its encodings. -/
theorem Sized.reset_eq (hs : c.Sized layout) :
    c.reset = { Channel.empty layout c.numChan with precision := c.precision } := by
  rw [Channel.reset, PixelMask.clear_eq_empty hs.mask_layout hs.size_bits, Array.map_const', hs.size_data, hs.layout_eq]
  rfl

/-- A channel whose coverage has been reset is empty, but for its encodings and its values. -/
theorem Sized.resetCoverage_eq (hs : c.Sized layout) :
    c.resetCoverage = { Channel.empty layout c.numChan with data := c.data, precision := c.precision } := by
  rw [Channel.resetCoverage, PixelMask.clear_eq_empty hs.mask_layout hs.size_bits, hs.layout_eq]
  rfl

theorem Sized.agrees_reset (hs : c.Sized layout) (hs' : c'.Sized layout) (hn : c'.numChan = c.numChan) :
    c.reset.Agrees true c'.reset := by
  rw [hs.reset_eq, hs'.reset_eq, hn]
  exact ⟨rfl, rfl, fun _ => rfl⟩

theorem Sized.agrees_resetCoverage (hs : c.Sized layout) (hs' : c'.Sized layout) (hn : c'.numChan = c.numChan) :
    c.resetCoverage.Agrees false c'.resetCoverage := by
  rw [hs.resetCoverage_eq, hs'.resetCoverage_eq, hn]
  exact ⟨rfl, by rw [hs.size_data, hs'.size_data, hn], nofun⟩

namespace Agrees

/-- Channels that agree differ in two fields. -/
theorem exists_eq (h : c.Agrees watched c') : ∃ data precision, c' = { c with data, precision } :=
  ⟨_, _, h.eq_with⟩

/-- What is watched need not be. -/
theorem of_watched (h : c.Agrees true c') (watched : Bool) : c.Agrees watched c' where
  eq_with := h.eq_with
  size_data := h.size_data
  data _ := h.data rfl

theorem mask_eq (h : c.Agrees watched c') : c'.mask = c.mask := by rw [h.eq_with]

theorem sampleCounts_eq (h : c.Agrees watched c') : c'.sampleCounts = c.sampleCounts := by rw [h.eq_with]

/-- A channel that is watched is the same but for its encodings. -/
theorem eq_with_precision (h : c.Agrees true c') : c' = { c with precision := c'.precision } := by
  have heq := h.eq_with
  rwa [h.data rfl] at heq

theorem reset (h : c.Agrees watched c') : c.reset.Agrees true c'.reset := by
  obtain ⟨data, precision, rfl⟩ := h.exists_eq
  have hdata : (data.map fun _ => Binary32.zero) = c.data.map fun _ => .zero := by
    rw [Array.map_const', Array.map_const', h.size_data]
  exact ⟨rfl, congrArg Array.size hdata, fun _ => hdata⟩

theorem resetCoverage (h : c.Agrees watched c') : c.resetCoverage.Agrees watched c'.resetCoverage := by
  obtain ⟨data, precision, rfl⟩ := h.exists_eq
  exact ⟨rfl, h.size_data, h.data⟩

/-! ## Updates and readouts -/

/-- An update is merged into both channels or refused by both for one reason. -/
theorem mergeUpdate (h : c.Agrees watched c') (u : TileUpdate) :
    (∃ e, c.mergeUpdate u = .error e ∧ c'.mergeUpdate u = .error e) ∨
      ∃ d d', c.mergeUpdate u = .ok d ∧ c'.mergeUpdate u = .ok d' ∧ d.Agrees watched d' := by
  obtain ⟨data, precision, rfl⟩ := h.exists_eq
  unfold Channel.mergeUpdate
  cases u.mismatch? c.layout c.numChan with
  | some e => exact .inl ⟨e, rfl, rfl⟩
  | none =>
    cases c.mask.merge u.mask with
    | error e => exact .inl ⟨e, rfl, rfl⟩
    | ok mask =>
      refine .inr ⟨_, _, rfl, rfl, rfl, ?_, fun hw => ?_⟩
      · simpa using h.size_data
      · have hdata : data = c.data := h.data hw
        rw [hdata]

theorem extrapolate (h : c.Agrees watched c') (roi : Option Viewport) :
    (c.extrapolate roi).Agrees watched (c'.extrapolate roi) := by
  obtain ⟨data, precision, rfl⟩ := h.exists_eq
  unfold Channel.extrapolate
  cases c.layout.area? roi with
  | none => exact h
  | some area =>
    refine ⟨rfl, ?_, fun hw => ?_⟩
    · simpa using h.size_data
    · have hdata : data = c.data := h.data hw
      rw [hdata]
      rfl

theorem untile (h : c.Agrees true c') (o : Orientation) (roi : Option Viewport) (first last : Nat) :
    c'.untile o roi first last = c.untile o roi first last := by
  rw [h.eq_with_precision]
  rfl

end Agrees

end Channel

namespace FrameStore

variable {watched : WellKnown → Bool} {s s' : FrameStore}

/-- The stores have one viewport, and their well-known channels agree. -/
structure Agrees (watched : WellKnown → Bool) (s s' : FrameStore) : Prop where
  viewport : s'.viewport = s.viewport
  channel : ∀ kind, (s.channel kind).Agrees (watched kind) (s'.channel kind)

/-- The stores are resets of stores of one viewport, so they agree in all that a reset takes. -/
theorem agrees_reset (hs : ∀ kind, (s.channel kind).Sized s.layout) (hs' : ∀ kind, (s'.channel kind).Sized s'.layout)
    (hn : ∀ kind, (s'.channel kind).numChan = (s.channel kind).numChan) (hv : s'.viewport = s.viewport)
    (mode : ResetMode) :
    (s.reset mode).Agrees (fun kind => !(Place.channel kind).keepsValues mode) (s'.reset mode) where
  viewport := hv
  channel kind := by
    have hlayout : s'.layout = s.layout := by rw [layout, layout, hv]
    have hsized' := hs' kind
    rw [hlayout] at hsized'
    rw [channel_reset, channel_reset, Place.keepsValues_channel]
    by_cases hkeeps : mode = .preserveColor ∧ kind.isColor
    · rw [if_pos hkeeps, if_pos hkeeps, decide_eq_true hkeeps]
      exact (hs kind).agrees_resetCoverage hsized' (hn kind)
    · rw [if_neg hkeeps, if_neg hkeeps]
      exact ((hs kind).agrees_reset hsized' (hn kind)).of_watched _

namespace Agrees

theorem layout (h : s.Agrees watched s') : s'.layout = s.layout := by
  rw [FrameStore.layout, FrameStore.layout, h.viewport]

theorem setChannel (h : s.Agrees watched s') {kind : WellKnown} {c c' : Channel} (hc : c.Agrees (watched kind) c') :
    (s.setChannel kind c).Agrees watched (s'.setChannel kind c') where
  viewport := h.viewport
  channel other := by
    rw [channel_setChannel, channel_setChannel]
    split
    · rename_i heq
      exact heq ▸ hc
    · exact h.channel other

theorem reset (h : s.Agrees watched s') (mode : ResetMode) : (s.reset mode).Agrees watched (s'.reset mode) where
  viewport := h.viewport
  channel kind := by
    rw [channel_reset, channel_reset]
    split
    · exact (h.channel kind).resetCoverage
    · exact (h.channel kind).reset.of_watched _

/-- An update of a channel is answered alike and keeps the stores in agreement. -/
theorem update (h : s.Agrees watched s') (kind : WellKnown) (u : TileUpdate) :
    (s'.write (.update kind u)).2 = (s.write (.update kind u)).2 ∧
      (s.write (.update kind u)).1.Agrees watched (s'.write (.update kind u)).1 := by
  simp only [write, mergeUpdate]
  rcases (h.channel kind).mergeUpdate u with ⟨e, he, he'⟩ | ⟨d, d', hd, hd', hagrees⟩
  · rw [he, he']
    exact ⟨rfl, h⟩
  · rw [hd, hd']
    exact ⟨rfl, h.setChannel hagrees⟩

/-- A readout of a channel keeps the stores in agreement, and gives the same if the channel is watched. -/
theorem readout (h : s.Agrees watched s') (kind : WellKnown) (o : Orientation) (roi : Option Viewport)
    (extrapolate : Bool) :
    (s.readout (.channel kind) o roi extrapolate).1.Agrees watched (s'.readout (.channel kind) o roi extrapolate).1 ∧
      (watched kind = true →
        (s'.readout (.channel kind) o roi extrapolate).2 = (s.readout (.channel kind) o roi extrapolate).2) := by
  simp only [FrameStore.readout, holder, h.viewport]
  generalize roi.map (Viewport.relativeTo · s.viewport) = area
  have hread : (if extrapolate then (s.channel kind).extrapolate area else s.channel kind).Agrees (watched kind)
      (if extrapolate then (s'.channel kind).extrapolate area else s'.channel kind) := by
    split
    · exact (h.channel kind).extrapolate area
    · exact h.channel kind
  refine ⟨h.setChannel hread, fun hw => ?_⟩
  rw [hw] at hread
  exact congrArg Except.ok (hread.untile o area 0 kind.numChan)

end Agrees

end FrameStore

end ProgressiveFrame
