import ProgressiveFrame.Proofs.Binary32.Unit
import ProgressiveFrame.Proofs.Channel.Blend

/-!
# What a slot without a ray count weighs

An update may come without ray counts. As long as all updates of a frame do, a covered slot weighs as one ray. The first
update with ray counts gives every slot one, which is zero for a slot that no update has a count for, and from then on
such a slot weighs nothing and loses its values in the next blend.

* `ChannelRun`: a channel with its history. `ChannelRun.lawful_ofRequests`: it is what the history prescribes.
* `ChannelHistory.cell`: the values and the weight that a history prescribes for a slot.
* `ChannelHistory.isCounted`: whether an update had a ray count for a slot. `cell_of_not_isCounted`: the weight without.
* `Cell.merge_blank`: a blend with nothing.
* `ChannelRun.uncounted_weighs`: the weight of such a slot after every run, and what blends make of it.
-/

namespace ProgressiveFrame

/-! ## Blends with nothing -/

namespace Cell

/-- The cell without rays. -/
def blank (n : Nat) : Cell Binary32 := ⟨.replicate n .zero, .zero⟩

theorem zipWith_replicate (f : Binary32 → Binary32 → Binary32) (values : Array Binary32) (w : Binary32) :
    Array.zipWith f values (.replicate values.size w) = values.map (f · w) ∧
      Array.zipWith f (.replicate values.size w) values = values.map (f w ·) := by
  constructor
  · apply Array.ext
    · simp
    · simp
  · apply Array.ext
    · simp
    · simp

/-- A cell of one ray is only settled by a blend with nothing. -/
theorem merge_blank (values : Array Binary32) :
    (Cell.mk values .one).merge (blank values.size) = ⟨values.map Binary32.settled, .one⟩ ∧
      (blank values.size).merge ⟨values, .one⟩ = ⟨values.map Binary32.settled, .one⟩ := by
  have hzero : Binary32.zero * Binary32.zero = Binary32.zero := by decide +kernel
  have htotal : totalCount Binary32.one .zero = .one ∧ totalCount Binary32.zero .one = .one := by decide +kernel
  obtain ⟨hright, hleft⟩ := Binary32.shares_one_zero
  rw [merge_eq, merge_eq]
  simp only [blank, hright, hleft, zipWith_replicate, hzero, Binary32.mul_one_add_zero, htotal, and_self]

/-- A cell without rays is wiped by a blend with nothing. -/
theorem merge_blank_blank (values : Array Binary32) :
    (Cell.mk values .zero).merge (blank values.size) = blank values.size ∧
      (blank values.size).merge ⟨values, .zero⟩ = blank values.size := by
  have hnone : shares? Binary32.zero .zero = none := by decide +kernel
  have htotal : totalCount Binary32.zero .zero = .zero := by decide +kernel
  rw [merge_eq, merge_eq]
  simp [blank, hnone, htotal, Binary32.scalar_zero, Array.map_const']

end Cell

/-! ## Weights of a history -/

namespace ChannelHistory

/-- Whether an update since the last reset had a ray count for a slot. -/
def isCounted (h : ChannelHistory) (slot : Nat) : Bool := h.sinceReset.any fun u => (u.countAt? slot).isSome

/-- The values of a slot, with the ray count that it weighs with. -/
def cell (h : ChannelHistory) (numChan slot : Nat) : Cell Binary32 :=
  ⟨h.values numChan slot, if h.hasCounts then h.count slot else if h.isCovered slot then .one else .zero⟩

/-- A covered slot without a ray count weighs as one ray, unless another slot has one. -/
theorem cell_of_not_isCounted {h : ChannelHistory} {slot : Nat} (hcovered : h.isCovered slot = true)
    (huncounted : h.isCounted slot = false) (numChan : Nat) :
    h.cell numChan slot = ⟨h.values numChan slot, if h.hasCounts then .zero else .one⟩ := by
  have hcount : h.count slot = .zero := by
    have hnone : h.sinceReset.findSome? (·.countAt? slot) = none := by
      rw [List.findSome?_eq_none_iff]
      intro u hu
      have hno := List.any_eq_false.mp huncounted u hu
      rwa [Option.not_isSome_iff_eq_none] at hno
    rw [count, hnone, Option.getD_none]
  rw [cell, hcount, if_pos hcovered]

end ChannelHistory

/-- What is asked of a channel between blends. -/
inductive ChannelRequest where
  | update (u : TileUpdate)
  | reset
  | resetCoverage

/-- A channel with what it has met. -/
structure ChannelRun where
  channel : Channel
  history : ChannelHistory

namespace ChannelRun

/-- The run with one request more. An update that is refused leaves it as it is. -/
def next (r : ChannelRun) : ChannelRequest → ChannelRun
  | .update u =>
    match r.channel.mergeUpdate u with
    | .ok c => ⟨c, .update u :: r.history⟩
    | .error _ => r
  | .reset => ⟨r.channel.reset, .reset false :: r.history⟩
  | .resetCoverage => ⟨r.channel.resetCoverage, .reset true :: r.history⟩

/-- The run of requests to an empty channel. -/
def ofRequests (layout : TileLayout) (numChan : Nat) (requests : List ChannelRequest) : ChannelRun :=
  requests.foldl next ⟨.empty layout numChan, []⟩

/-- The channel can be reached, has the shape that it had at first, and holds what the history prescribes. -/
structure Lawful (r : ChannelRun) (layout : TileLayout) (numChan : Nat) : Prop where
  reachable : r.channel.Reachable
  numChan_eq : r.channel.numChan = numChan
  tracks : r.channel.Tracks layout r.history

variable {r : ChannelRun} {layout : TileLayout} {numChan slot : Nat}

theorem Lawful.next (h : r.Lawful layout numChan) (q : ChannelRequest) : (r.next q).Lawful layout numChan := by
  cases q with
  | update u =>
    rw [ChannelRun.next]
    cases hu : r.channel.mergeUpdate u with
    | error e => exact h
    | ok c =>
      obtain ⟨-, mask, -, hc⟩ := Channel.mergeUpdate_ok hu
      have hnum : c.numChan = r.channel.numChan := by rw [hc]
      exact ⟨h.reachable.mergeUpdate hu, hnum.trans h.numChan_eq, h.tracks.update hu⟩
  | reset => exact ⟨h.reachable.reset, h.numChan_eq, h.tracks.reset⟩
  | resetCoverage => exact ⟨h.reachable.resetCoverage, h.numChan_eq, h.tracks.resetCoverage⟩

theorem Lawful.foldl_next (h : r.Lawful layout numChan) (requests : List ChannelRequest) :
    (requests.foldl ChannelRun.next r).Lawful layout numChan := by
  induction requests generalizing r with
  | nil => exact h
  | cons q requests ih => exact ih (h.next q)

theorem lawful_ofRequests (layout : TileLayout) (numChan : Nat) (requests : List ChannelRequest) :
    (ofRequests layout numChan requests).Lawful layout numChan :=
  have hblank : ChannelHistory.IsBlank [] := rfl
  Lawful.foldl_next ⟨.empty layout numChan, rfl, .empty layout numChan hblank⟩ requests

/-- An update of the right shape enters the history. -/
theorem Lawful.history_update (h : r.Lawful layout numChan) {u : TileUpdate} (hu : u.Fits layout numChan) :
    (r.next (.update u)).history = .update u :: r.history := by
  have hfits : u.Fits r.channel.layout r.channel.numChan := by rwa [h.tracks.layout_eq, h.numChan_eq]
  obtain ⟨c, hc⟩ := h.reachable.sized.exists_mergeUpdate (TileUpdate.mismatch?_eq_none_iff.mpr hfits)
  rw [ChannelRun.next, hc]

/-- The slots of the channel are those of the history, also in what they weigh. -/
theorem Lawful.cell_eq (h : r.Lawful layout numChan) (hslot : slot < layout.capacity) :
    r.channel.cell slot = r.history.cell numChan slot := by
  have hweight : r.channel.weightAt slot =
      if r.history.hasCounts then r.history.count slot else if r.history.isCovered slot then .one else .zero := by
    rw [← h.tracks.hasCounts, ← h.tracks.count slot hslot, ← h.tracks.covered slot hslot, Channel.weightAt,
      Channel.countsOrZero]
    cases r.channel.sampleCounts <;> rfl
  rw [Channel.cell, hweight, h.tracks.values slot hslot, h.numChan_eq]
  rfl

/-- A blend with the empty channel, into it or into the channel of the run, blends each slot with nothing. -/
theorem Lawful.exists_mergeEmpty (h : r.Lawful layout numChan) (hslot : slot < layout.capacity) : ∃ left right,
    r.channel.mergeWeighted (.empty layout numChan) = .ok left ∧
    (Channel.empty layout numChan).mergeWeighted r.channel = .ok right ∧
    left.cell slot = (r.history.cell numChan slot).merge (.blank numChan) ∧
    right.cell slot = (Cell.blank numChan).merge (r.history.cell numChan slot) := by
  have hempty := Lawful.cell_eq (lawful_ofRequests layout numChan []) hslot
  have hblank : (Channel.empty layout numChan).cell slot = .blank numChan := hempty
  have hsized := h.reachable.sized
  have hsized' := (Channel.Reachable.empty layout numChan).sized
  have hslot' : slot < r.channel.layout.capacity := by rwa [h.tracks.layout_eq]
  obtain ⟨left, hleft⟩ := hsized.exists_mergeWeighted hsized' h.tracks.layout_eq.symm h.numChan_eq.symm
  obtain ⟨right, hright⟩ := hsized'.exists_mergeWeighted hsized h.tracks.layout_eq h.numChan_eq
  refine ⟨left, right, hleft, hright, ?_, ?_⟩
  · rw [Channel.cell_of_mergeWeighted hsized hsized' hleft hslot', h.cell_eq hslot, hblank]
  · rw [Channel.cell_of_mergeWeighted hsized' hsized hright hslot, h.cell_eq hslot, hblank]

/-- Two updates of the right shape make up the history of their run. -/
theorem history_twoUpdates {u u' : TileUpdate} (hu : u.Fits layout numChan) (hu' : u'.Fits layout numChan) :
    (ofRequests layout numChan [.update u, .update u']).history = [.update u', .update u] := by
  have hfirst := (lawful_ofRequests layout numChan []).history_update hu
  have hsecond := (lawful_ofRequests layout numChan [.update u]).history_update hu'
  exact hsecond.trans (congrArg _ hfirst)

/-- The weight of a covered slot for which no update since the last reset had a ray count, after every run of updates
and resets. It is one ray as long as no update since then had ray counts at all, and none from then on, in blends into
the channel and in blends of the channel into another one. So a blend with the empty channel leaves the values of the
slot, but for the sign of a zero and the quiet bit of a pattern that is not a number, or it wipes them. -/
theorem uncounted_weighs (layout : TileLayout) (numChan : Nat) (requests : List ChannelRequest) {slot : Nat}
    (hslot : slot < layout.capacity) (hcovered : (ofRequests layout numChan requests).history.isCovered slot = true)
    (huncounted : (ofRequests layout numChan requests).history.isCounted slot = false) :
    let r := ofRequests layout numChan requests
    let values := r.history.values numChan slot
    let weight : Binary32 := if r.history.hasCounts then .zero else .one
    r.channel.cell slot = ⟨values, weight⟩ ∧
    (∀ other m : Channel, other.Reachable →
      (r.channel.mergeWeighted other = .ok m → m.cell slot = (Cell.mk values weight).merge (other.cell slot)) ∧
      (other.mergeWeighted r.channel = .ok m → m.cell slot = (other.cell slot).merge ⟨values, weight⟩)) ∧
    ∃ left right, r.channel.mergeWeighted (.empty layout numChan) = .ok left ∧
      (Channel.empty layout numChan).mergeWeighted r.channel = .ok right ∧
      left.cell slot = right.cell slot ∧
      left.cell slot = if r.history.hasCounts then .blank numChan else ⟨values.map Binary32.settled, .one⟩ := by
  have h := lawful_ofRequests layout numChan requests
  intro r values weight
  have hhistory : r.history.cell numChan slot = ⟨values, weight⟩ :=
    ChannelHistory.cell_of_not_isCounted hcovered huncounted numChan
  have hcell : r.channel.cell slot = ⟨values, weight⟩ := (h.cell_eq hslot).trans hhistory
  have hslot' : slot < r.channel.layout.capacity := h.tracks.layout_eq.symm ▸ hslot
  have hsize : values.size = numChan := by
    have hvalues : r.channel.slotValues slot = values := congrArg Cell.values hcell
    have hle := h.reachable.sized.slot_le hslot'
    rw [← hvalues, Channel.slotValues, size_extract_slot hle, h.numChan_eq]
  refine ⟨hcell, fun other m hother => ⟨fun hm => ?_, fun hm => ?_⟩, ?_⟩
  · rw [Channel.cell_of_mergeWeighted h.reachable.sized hother.sized hm hslot', hcell]
  · have hlayout := (Channel.mergeWeighted_ok hm).1
    rw [Channel.cell_of_mergeWeighted hother.sized h.reachable.sized hm (hlayout ▸ hslot'), hcell]
  · obtain ⟨left, right, hleft, hright, hcellLeft, hcellRight⟩ := h.exists_mergeEmpty hslot
    refine ⟨left, right, hleft, hright, ?_⟩
    rw [hcellLeft, hcellRight, hhistory, ← hsize]
    cases hcounts : r.history.hasCounts with
    | true =>
      obtain ⟨hblankRight, hblankLeft⟩ := Cell.merge_blank_blank values
      simp only [weight, hcounts, if_true, hblankRight, hblankLeft, and_self]
    | false =>
      obtain ⟨hblankRight, hblankLeft⟩ := Cell.merge_blank values
      simp only [weight, hcounts, Bool.false_eq_true, if_false, hblankRight, hblankLeft, and_self]

/-- Without ray counts at all, a negative zero loses its sign in a blend with nothing and the number one is kept. -/
theorem uncounted_weighs_negativeZero :
    let layout : TileLayout := ⟨2, 1⟩
    let u : TileUpdate := ⟨(PixelMask.empty layout).set 0 0, 2, #[⟨0x80000000⟩, .one], none, {}⟩
    let u' : TileUpdate := ⟨(PixelMask.empty layout).set 1 0, 2, #[.one, .one], none, {}⟩
    let r := ofRequests layout 2 [.update u, .update u']
    0 < layout.capacity ∧ r.history.isCovered 0 = true ∧ r.history.isCounted 0 = false ∧
      r.channel.cell 0 = ⟨#[⟨0x80000000⟩, .one], .one⟩ ∧
      ∃ m, r.channel.mergeWeighted (.empty layout 2) = .ok m ∧ m.cell 0 = ⟨#[.zero, .one], .one⟩ := by
  intro layout u u' r
  have hu : u.Fits layout 2 := TileUpdate.mismatch?_eq_none_iff.mp (by decide +kernel)
  have hu' : u'.Fits layout 2 := TileUpdate.mismatch?_eq_none_iff.mp (by decide +kernel)
  have hhistory : r.history = [.update u', .update u] := history_twoUpdates hu hu'
  have hslot : 0 < layout.capacity := by decide +kernel
  have hcovered : r.history.isCovered 0 = true := by rw [hhistory]; decide +kernel
  have huncounted : r.history.isCounted 0 = false := by rw [hhistory]; decide +kernel
  have hcounts : r.history.hasCounts = false := by rw [hhistory]; rfl
  have hvalues : r.history.values 2 0 = #[⟨0x80000000⟩, .one] := by rw [hhistory]; decide +kernel
  obtain ⟨hcell, -, m, -, hm, -, -, hmerged⟩ := uncounted_weighs layout 2 _ hslot hcovered huncounted
  rw [hvalues, hcounts] at hcell
  rw [hvalues, hcounts] at hmerged
  exact ⟨hslot, hcovered, huncounted, hcell, m, hm, hmerged.trans (by decide +kernel)⟩

/-- A slot that an update covers without a ray count does not always weigh as one ray. An update of another slot that
has one takes its weight, and a blend with the empty channel takes its value. -/
theorem uncounted_wiped :
    let layout : TileLayout := ⟨2, 1⟩
    let u : TileUpdate := ⟨(PixelMask.empty layout).set 0 0, 1, #[.one], none, {}⟩
    let u' : TileUpdate := ⟨(PixelMask.empty layout).set 1 0, 1, #[.one], some #[⟨0x40000000⟩], {}⟩
    let r := ofRequests layout 1 [.update u, .update u']
    r.history.isCovered 0 = true ∧ r.history.isCounted 0 = false ∧ r.channel.cell 0 = ⟨#[.one], .zero⟩ ∧
      ∃ m, r.channel.mergeWeighted (.empty layout 1) = .ok m ∧ m.cell 0 = ⟨#[.zero], .zero⟩ := by
  intro layout u u' r
  have hu : u.Fits layout 1 := TileUpdate.mismatch?_eq_none_iff.mp (by decide +kernel)
  have hu' : u'.Fits layout 1 := TileUpdate.mismatch?_eq_none_iff.mp (by decide +kernel)
  have hhistory : r.history = [.update u', .update u] := history_twoUpdates hu hu'
  have hslot : 0 < layout.capacity := by decide +kernel
  have hcell : r.history.cell 1 0 = ⟨#[.one], .zero⟩ := by rw [hhistory]; decide +kernel
  have h := lawful_ofRequests layout 1 [.update u, .update u']
  obtain ⟨m, -, hm, -, hmerged, -⟩ := h.exists_mergeEmpty hslot
  rw [hcell] at hmerged
  refine ⟨?_, ?_, (h.cell_eq hslot).trans hcell, m, hm, hmerged.trans (by decide +kernel)⟩
  · rw [hhistory]
    decide +kernel
  · rw [hhistory]
    decide +kernel

end ChannelRun

end ProgressiveFrame
