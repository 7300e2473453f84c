import ProgressiveFrame.Proofs.Bounds.Fill
import ProgressiveFrame.Proofs.Bounds.Merge
import ProgressiveFrame.Proofs.Bounds.Readout

/-!
# No run drives a channel out of bounds

A store that asks for each part of its buffers before it touches it does what the store does. The channels that stand in
it on the way are made by the operations on channels, whatever updates arrive, and such a channel has a place for each
pixel that an operation turns to.

* `Channel.InBounds`: no operation on the channel asks for what is not there, and no check of an inner operation refuses
  what the checks before it let pass. `Made.inBounds`: every channel that is made has this.
* `FrameStore.Built`: a store whose channels are made. Steps keep this (`Built.after`), so runs do (`Built.afterAll`).
* `FrameStore.afterChecked`: a step that asks for each part of the store first.
* `FrameStore.afterAll_inBounds`: a run of such steps has a result, the result is that of the run, and all channels that
  it leaves are in bounds.
-/

namespace ProgressiveFrame

/-! ## Masks and channels -/

/-- No operation on the mask asks for a bit that is not there. -/
structure PixelMask.InBounds (m : PixelMask) : Prop where
  set : ∀ x y, m.setChecked x y = some (m.set x y)
  isSet : ∀ x y, m.isSetChecked x y = some (m.isSet x y)
  merge : ∀ other : PixelMask, other.Made → m.mergeChecked other = some (m.merge other)

/-- Every mask that is made is in bounds. -/
theorem PixelMask.Made.inBounds {m : PixelMask} (made : m.Made) : m.InBounds where
  set := made.sound.setChecked_eq
  isSet := made.sound.isSetChecked_eq
  merge _ otherMade := made.sound.mergeChecked_eq otherMade.sound

/-- No operation on the channel asks for what is not there. -/
structure Channel.InBounds (c : Channel) : Prop where
  size_data : c.data.size = c.layout.capacity * c.numChan
  size_counts : ∀ counts, c.sampleCounts = some counts → counts.size = c.layout.capacity
  mask_layout : c.mask.layout = c.layout
  size_bits : c.mask.bits.size = c.layout.capacity
  /-- The mask has no bit set but for pixels of the image. -/
  inImage : ∀ slot, c.mask.isSlotSet slot = true → ∃ x y, c.layout.inImage x y = true ∧ slot = c.layout.slot x y
  /-- A slot has a pixel with coordinates, so there is a column of tiles to divide by. -/
  pixelOf : ∀ slot, slot < c.layout.capacity → c.layout.tilesX ≠ 0 ∧
    c.layout.pixelOf? slot = some (c.layout.pixelOf slot)
  mergeUpdate : ∀ u : TileUpdate, u.mask.Made → c.mergeUpdateChecked u = some (c.mergeUpdate u)
  /-- An update that passes the checks of its shape is merged. -/
  mergeUpdate_ok : ∀ u : TileUpdate, u.mismatch? c.layout c.numChan = none → ∃ c', c.mergeUpdate u = .ok c'
  mergeWeighted : ∀ other : Channel, other.Made → c.mergeWeightedChecked other = some (c.mergeWeighted other)
  /-- A channel that passes the checks of its layout and its number of values is blended in. -/
  mergeWeighted_ok : ∀ other : Channel, other.Made → other.layout = c.layout → other.numChan = c.numChan →
    ∃ c', c.mergeWeighted other = .ok c'
  extrapolate : ∀ roi, c.extrapolateChecked roi = some (c.extrapolate roi)
  untile : ∀ o roi first last, first ≤ last → c.untileChecked o roi first last = some (c.untile o roi first last)
  pixel : ∀ x y, c.pixelChecked x y = some (c.pixel? x y)
  sampleCount : ∀ x y, c.sampleCountChecked x y = some (c.sampleCount? x y)

namespace Channel

variable {c : Channel}

/-- Every channel that is made is in bounds. -/
theorem Made.inBounds (made : c.Made) : c.InBounds := by
  have h := made.sound
  exact {
    size_data := h.size_data
    size_counts := h.size_counts
    mask_layout := h.mask_layout
    size_bits := h.size_bits
    inImage := fun slot hset => h.mask_layout ▸ h.mask.inImage slot hset
    pixelOf := fun slot hslot =>
      ⟨TileLayout.tilesX_ne_zero hslot, h.pixelOf?_eq hslot⟩
    mergeUpdate := fun u maskMade => h.mergeUpdateChecked_eq maskMade.sound
    mergeUpdate_ok := fun u hfit => h.toSized.exists_mergeUpdate hfit
    mergeWeighted := fun other otherMade => h.mergeWeightedChecked_eq otherMade.sound
    mergeWeighted_ok := fun other otherMade hlayout hnum =>
      h.toSized.exists_mergeWeighted otherMade.sound.toSized hlayout hnum
    extrapolate := h.extrapolateChecked_eq
    untile := fun o roi first last hrange => h.untileChecked_eq o roi hrange
    pixel := h.pixelChecked_eq
    sampleCount := h.sampleCountChecked_eq }

/-- What a readout leaves of the channel and what it shows, asking for each part of the data first. -/
def readoutChecked (c : Channel) (o : Orientation) (roi : Option Viewport) (first last : Nat) (extrapolate : Bool) :
    Option (Channel × Readout) := do
  let c ← if extrapolate then c.extrapolateChecked roi else some c
  let readout ← c.untileChecked o roi first last
  return (c, readout)

/-- A readout fills the channel if it is to, and a filled channel is made. -/
theorem Made.filled (made : c.Made) (roi : Option Viewport) (extrapolate : Bool) :
    (if extrapolate then c.extrapolate roi else c).Made := by
  cases extrapolate with
  | false => exact made
  | true => exact made.extrapolate roi

theorem Made.readoutChecked_eq (made : c.Made) (o : Orientation) (roi : Option Viewport) {first last : Nat}
    (hrange : first ≤ last) (extrapolate : Bool) :
    c.readoutChecked o roi first last extrapolate =
      some (if extrapolate then c.extrapolate roi else c,
        (if extrapolate then c.extrapolate roi else c).untile o roi first last) := by
  cases extrapolate with
  | false => simp [readoutChecked, made.inBounds.untile o roi first last hrange]
  | true =>
    have huntile := (made.extrapolate roi).inBounds.untile o roi first last hrange
    simp [readoutChecked, made.inBounds.extrapolate roi, huntile]

end Channel

/-! ## Stores -/

/-- The mask of the update that a step brings, if it brings one, is made by the operations on masks. -/
def StoreStep.MaskMade : StoreStep → Prop
  | .request (.write w) => ∀ u, w.update? = some u → u.mask.Made
  | .request (.reset _) => True
  | .readout .. => True

namespace FrameStore

/-- The channel stands in the store. -/
inductive Holds (s : FrameStore) : Channel → Prop where
  | wellKnown (kind : WellKnown) : Holds s (s.channel kind)
  | aov {index : Nat} {c : Channel} (found : s.aovAt? index = some (.owned c)) : Holds s c

/-- Every channel of the store is made by the operations on channels. -/
structure Built (s : FrameStore) : Prop where
  measurable : s.viewport.isMeasurable = true
  made : ∀ {c}, s.Holds c → c.Made

variable {s : FrameStore} {c : Channel} {step : StoreStep}

theorem built_empty {v : Viewport} (hv : v.isMeasurable = true) : (FrameStore.empty v).Built where
  measurable := hv
  made held := by
    cases held with
    | wellKnown kind =>
      rw [channel, empty, PerWellKnown.get_ofFn]
      exact .empty hv _
    | @aov index c found => cases found

/-- What a step looks up in the table of AOVs it finds there. -/
theorem exists_aovAt? {name : String} {index : Nat} (h : s.aovIndex? name = some index) :
    ∃ aov, s.aovAt? index = some aov := by
  obtain ⟨hlt, -⟩ := Array.findIdx?_eq_some_iff_getElem.mp h
  exact ⟨s.aovs[index].2, by simp [aovAt?, hlt]⟩

namespace Built

theorem setChannel (h : s.Built) (kind : WellKnown) (hc : c.Made) : (s.setChannel kind c).Built where
  measurable := h.measurable
  made held := by
    cases held with
    | wellKnown other =>
      rw [channel_setChannel]
      split
      · exact hc
      · exact h.made (.wellKnown other)
    | aov found => exact h.made (.aov found)

theorem setAov (h : s.Built) (index : Nat) (hc : c.Made) : (s.setAov index (.owned c)).Built where
  measurable := h.measurable
  made held := by
    cases held with
    | wellKnown kind => exact h.made (.wellKnown kind)
    | @aov other d found =>
      rw [aovAt?_setAov] at found
      split at found
      · obtain ⟨_, -, hd⟩ := Option.map_eq_some_iff.mp found
        cases hd
        exact hc
      · exact h.made (.aov found)

/-- A new name brings its AOV with it and nothing else. -/
theorem sightAov (h : s.Built) (name : String) {aov : Aov} (hnew : ∀ c, aov = .owned c → c.Made) :
    (s.sightAov name aov).1.Built := by
  unfold FrameStore.sightAov
  cases s.aovIndex? name with
  | some index => exact h
  | none =>
    refine ⟨h.measurable, fun held => ?_⟩
    cases held with
    | wellKnown kind => exact h.made (.wellKnown kind)
    | @aov index c found =>
      simp only [aovAt?, Array.getElem?_push] at found
      split at found
      · exact hnew _ (Option.some.inj found)
      · exact h.made (.aov found)

theorem reset (h : s.Built) (mode : ResetMode) : (s.reset mode).Built where
  measurable := h.measurable
  made held := by
    cases held with
    | wellKnown kind =>
      rw [channel_reset]
      split
      · exact (h.made (.wellKnown kind)).resetCoverage
      · exact (h.made (.wellKnown kind)).reset
    | @aov index d found =>
      rw [aovAt?_reset, Option.map_eq_some_iff] at found
      obtain ⟨aov, hat, hd⟩ := found
      cases aov with
      | reference kind => cases hd
      | owned c =>
        cases hd
        exact (h.made (.aov hat)).reset

end Built

/-! ## Steps that ask first -/

/-- A merge into a well-known channel that asks for each part of a buffer first. -/
def mergeUpdateChecked (s : FrameStore) (kind : WellKnown) (u : TileUpdate) :
    Option (FrameStore × Except FrameError Unit) := do
  match ← (s.channel kind).mergeUpdateChecked u with
  | .ok c => return (s.setChannel kind c, .ok ())
  | .error e => return (s, .error e)

/-- A merge into an AOV that asks for its entry in the table and for each part of a buffer first. -/
def mergeAovChecked (s : FrameStore) (name : String) (u : TileUpdate) :
    Option (FrameStore × Except FrameError Unit) := do
  let (s, index) := s.sightAov name (.owned (.empty s.layout u.numChan))
  match ← s.aovAt? index with
  | .reference _ => return (s, .error (.referenceAov name))
  | .owned c =>
    match ← c.mergeUpdateChecked u with
    | .ok c => return (s.setAov index (.owned c), .ok ())
    | .error e => return (s, .error e)

/-- A sight of an alias that asks for its entry in the table. -/
def registerReferenceChecked (s : FrameStore) (name : String) (kind : ReferenceKind) : Option FrameStore := do
  let (s, index) := s.sightAov name (.reference kind)
  let _ ← s.aovAt? index
  return s

/-- A request that asks for each part of the store first. -/
def serveChecked (s : FrameStore) : StoreRequest → Option (FrameStore × Except FrameError Unit)
  | .write (.update kind u) => s.mergeUpdateChecked kind u
  | .write (.updateAov name u) => s.mergeAovChecked name u
  | .write (.reference name kind) => (s.registerReferenceChecked name kind).map (·, .ok ())
  | .reset mode => some (s.reset mode, .ok ())

/-- The holder of a source, where a name with an index has an entry in the table. -/
def holderChecked (s : FrameStore) : ReadoutSource → Option (Except FrameError Holder)
  | .aovName name =>
    match s.aovIndex? name with
    | some index => (s.aovAt? index).map fun aov => .ok (.ofAov index aov)
    | none => some (.error (.unknownAov name))
  | source => some (s.holder source)

/-- A readout that asks for each part of the store first. -/
def readoutChecked (s : FrameStore) (source : ReadoutSource) (o : Orientation) (roi : Option Viewport)
    (extrapolate : Bool) : Option (FrameStore × Except FrameError Readout) := do
  let roi := roi.map (·.relativeTo s.viewport)
  match ← s.holderChecked source with
  | .error e => return (s, .error e)
  | .ok (.wellKnown kind first last) =>
    let (c, readout) ← (s.channel kind).readoutChecked o roi first last extrapolate
    return (s.setChannel kind c, .ok readout)
  | .ok (.owned index c) =>
    let (c, readout) ← c.readoutChecked o roi 0 c.numChan extrapolate
    return (s.setAov index (.owned c), .ok readout)

/-- The store after a step that asks first. -/
def afterChecked (s : FrameStore) : StoreStep → Option FrameStore
  | .request q => (s.serveChecked q).map (·.1)
  | .readout source o roi extrapolate => (s.readoutChecked source o roi extrapolate).map (·.1)

/-- A sighted name has an entry in the table. -/
theorem exists_aovAt?_sightAov (s : FrameStore) (name : String) (aov : Aov) :
    ∃ entry, (s.sightAov name aov).1.aovAt? (s.sightAov name aov).2 = some entry :=
  exists_aovAt? (aovIndex?_sightAov s name aov)

theorem holderChecked_eq (s : FrameStore) (source : ReadoutSource) :
    s.holderChecked source = some (s.holder source) := by
  cases source with
  | channel kind => rfl
  | aovIndex index => rfl
  | aovName name =>
    rw [holderChecked, holder]
    cases hindex : s.aovIndex? name with
    | none => rfl
    | some index =>
      obtain ⟨aov, hat⟩ := exists_aovAt? hindex
      simp only [hat]
      rfl

/-- A holder that stands in the store: a range of the values of a well-known channel, or the entry of an AOV. -/
def Holder.Stands (s : FrameStore) : Holder → Prop
  | .wellKnown _ first last => first ≤ last
  | .owned index c => s.aovAt? index = some (.owned c)

theorem Holder.stands_ofAov {index : Nat} {aov : Aov} (h : s.aovAt? index = some aov) : (ofAov index aov).Stands s := by
  cases aov with
  | owned c => exact h
  | reference kind => cases kind <;> exact Nat.le_of_ble_eq_true rfl

theorem stands_holder {source : ReadoutSource} {held : Holder} (h : s.holder source = .ok held) : held.Stands s := by
  cases source with
  | channel kind =>
    cases h
    exact Nat.zero_le _
  | aovIndex index =>
    simp only [holder] at h
    split at h
    · rename_i aov hat
      cases h
      exact Holder.stands_ofAov hat
    · cases h
  | aovName name =>
    simp only [holder] at h
    split at h
    · split at h
      · rename_i aov hat
        cases h
        exact Holder.stands_ofAov hat
      · cases h
    · cases h

namespace Built

theorem mergeUpdate (h : s.Built) {kind : WellKnown} {u : TileUpdate} (maskMade : u.mask.Made) :
    (s.mergeUpdate kind u).1.Built ∧ s.mergeUpdateChecked kind u = some (s.mergeUpdate kind u) := by
  have made := h.made (.wellKnown kind)
  rw [FrameStore.mergeUpdateChecked, FrameStore.mergeUpdate, made.inBounds.mergeUpdate u maskMade]
  cases hresult : (s.channel kind).mergeUpdate u with
  | error e => exact ⟨h, rfl⟩
  | ok c => exact ⟨h.setChannel kind (made.mergeUpdate maskMade hresult), rfl⟩

theorem mergeAov (h : s.Built) {name : String} {u : TileUpdate} (maskMade : u.mask.Made) :
    (s.mergeAov name u).1.Built ∧ s.mergeAovChecked name u = some (s.mergeAov name u) := by
  have hsight : (s.sightAov name (.owned (.empty s.layout u.numChan))).1.Built :=
    h.sightAov name fun c hc => by
      cases hc
      exact .empty h.measurable _
  obtain ⟨entry, hentry⟩ := s.exists_aovAt?_sightAov name (.owned (.empty s.layout u.numChan))
  simp only [FrameStore.mergeAovChecked, FrameStore.mergeAov]
  generalize s.sightAov name (.owned (.empty s.layout u.numChan)) = t at hsight hentry
  rw [hentry]
  cases entry with
  | reference kind => exact ⟨hsight, rfl⟩
  | owned c =>
    have made := hsight.made (.aov hentry)
    simp only [Option.bind_eq_bind, Option.bind_some, made.inBounds.mergeUpdate u maskMade]
    cases hresult : c.mergeUpdate u with
    | error e => exact ⟨hsight, rfl⟩
    | ok c' => exact ⟨hsight.setAov t.2 (made.mergeUpdate maskMade hresult), rfl⟩

theorem registerReference (h : s.Built) (name : String) (kind : ReferenceKind) :
    (s.registerReference name kind).Built ∧
      s.registerReferenceChecked name kind = some (s.registerReference name kind) := by
  obtain ⟨entry, hentry⟩ := s.exists_aovAt?_sightAov name (.reference kind)
  refine ⟨h.sightAov name nofun, ?_⟩
  simp only [FrameStore.registerReferenceChecked, hentry]
  rfl

/-- A request keeps the store built, and asks for nothing that is not there. -/
theorem serve (h : s.Built) {q : StoreRequest} (maskMade : StoreStep.MaskMade (.request q)) :
    (s.serve q).1.Built ∧ s.serveChecked q = some (s.serve q) := by
  cases q with
  | reset mode => exact ⟨h.reset mode, rfl⟩
  | write w =>
    cases w with
    | update kind u => exact h.mergeUpdate (maskMade u rfl)
    | updateAov name u => exact h.mergeAov (maskMade u rfl)
    | reference name kind =>
      obtain ⟨hbuilt, hchecked⟩ := h.registerReference name kind
      exact ⟨hbuilt, by rw [serveChecked, hchecked]; rfl⟩

/-- So does a readout. -/
theorem readout (h : s.Built) (source : ReadoutSource) (o : Orientation) (roi : Option Viewport) (extrapolate : Bool) :
    (s.readout source o roi extrapolate).1.Built ∧
      s.readoutChecked source o roi extrapolate = some (s.readout source o roi extrapolate) := by
  simp only [FrameStore.readoutChecked, FrameStore.readout, holderChecked_eq, Option.bind_eq_bind, Option.bind_some]
  cases hheld : s.holder source with
  | error e => exact ⟨h, rfl⟩
  | ok held =>
    have hstands := stands_holder hheld
    cases held with
    | wellKnown kind first last =>
      have made := h.made (.wellKnown kind)
      simp only [made.readoutChecked_eq o _ hstands extrapolate]
      exact ⟨h.setChannel kind (made.filled _ extrapolate), rfl⟩
    | owned index c =>
      have made := h.made (.aov hstands)
      simp only [made.readoutChecked_eq o _ (Nat.zero_le c.numChan) extrapolate]
      have hnum (roi : Option Viewport) : (if extrapolate then c.extrapolate roi else c).numChan = c.numChan := by
        cases extrapolate with
        | false => rfl
        | true => exact Channel.numChan_extrapolate c roi
      exact ⟨h.setAov index (made.filled _ extrapolate), by rw [hnum]; rfl⟩

theorem after (h : s.Built) (hstep : step.MaskMade) :
    (s.after step).Built ∧ s.afterChecked step = some (s.after step) := by
  cases step with
  | request q =>
    obtain ⟨hbuilt, hchecked⟩ := h.serve hstep
    exact ⟨hbuilt, by rw [afterChecked, hchecked]; rfl⟩
  | readout source o roi extrapolate =>
    obtain ⟨hbuilt, hchecked⟩ := h.readout source o roi extrapolate
    exact ⟨hbuilt, by rw [afterChecked, hchecked]; rfl⟩

/-- A run keeps the store built, and asks for nothing that is not there. -/
theorem afterAll (h : s.Built) {steps : List StoreStep} (hsteps : ∀ step ∈ steps, step.MaskMade) :
    (s.afterAll steps).Built ∧ steps.foldlM afterChecked s = some (s.afterAll steps) := by
  induction steps generalizing s with
  | nil => exact ⟨h, rfl⟩
  | cons step steps ih =>
    obtain ⟨hbuilt, hchecked⟩ := h.after (hsteps step List.mem_cons_self)
    rw [List.foldlM_cons, hchecked]
    exact ih hbuilt fun other hother => hsteps other (List.mem_cons_of_mem step hother)

end Built

/-- No run drives a channel out of bounds. Take any viewport whose size can be counted, and any steps whose updates have
masks that are made, and else any shape and any number of values. A run that asks for each part of the store before it
touches it has a result, and the result is that of the run. The channels that it leaves are made by the operations on
channels, and such a channel is in bounds, whatever operations made it. So is a mask that is made. -/
theorem afterAll_inBounds (v : Viewport) (steps : List StoreStep) (hv : v.isMeasurable = true)
    (hsteps : ∀ step ∈ steps, step.MaskMade) :
    let s := (FrameStore.empty v).afterAll steps
    steps.foldlM afterChecked (FrameStore.empty v) = some s ∧
      (∀ q, StoreStep.MaskMade (.request q) → s.serveChecked q = some (s.serve q)) ∧
      (∀ source o roi extrapolate,
        s.readoutChecked source o roi extrapolate = some (s.readout source o roi extrapolate)) ∧
      (∀ c, s.Holds c → c.Made) ∧
      (∀ c : Channel, c.Made → c.InBounds) ∧
      ∀ m : PixelMask, m.Made → m.InBounds := by
  intro s
  obtain ⟨hbuilt, hrun⟩ := (built_empty hv).afterAll hsteps
  exact ⟨hrun, fun q maskMade => (hbuilt.serve maskMade).2,
    fun source o roi extrapolate => (hbuilt.readout source o roi extrapolate).2, fun c held => hbuilt.made held,
    fun c made => made.inBounds, fun m made => made.inBounds⟩

/-- The right one of two pixels has a colour, an AOV has no values at all, and both are read out. -/
def valuelessSteps : List StoreStep :=
  [.request (.write (.update .beauty (.onePixel ⟨2, 1⟩ 1 0 #[⟨1⟩, ⟨2⟩, ⟨3⟩, ⟨4⟩]))),
    .request (.write (.updateAov "nothing" (.onePixel ⟨2, 1⟩ 0 0 #[]))),
    .readout (.channel .beauty) .topDown none true, .readout (.aovIndex 0) .bottomUp (some ⟨1, 0, 9, 9⟩) true]

/-- The colours can be blended with themselves, and an AOV without values is read out as such. -/
theorem afterAll_inBounds_valueless :
    let v : Viewport := ⟨0, 0, 1, 0⟩
    let s := (FrameStore.empty v).afterAll valuelessSteps
    v.isMeasurable = true ∧ (∀ step ∈ valuelessSteps, step.MaskMade) ∧
      valuelessSteps.foldlM afterChecked (FrameStore.empty v) = some s ∧
      (∃ c, (s.channel .beauty).mergeWeighted (s.channel .beauty) = .ok c) ∧
      (s.readoutChecked (.aovName "nothing") .topDown none true).map (·.2) = some (.ok ⟨2, 1, 0, #[]⟩) := by
  intro v s
  have hv : v.isMeasurable = true := by decide
  have hpixel (x y : Nat) (values : Array Binary32) : (TileUpdate.onePixel ⟨2, 1⟩ x y values).mask.Made :=
    (PixelMask.Made.empty _).set x y
  have hsteps : ∀ step ∈ valuelessSteps, step.MaskMade := by
    intro step hstep
    simp only [valuelessSteps, List.mem_cons, List.not_mem_nil, or_false] at hstep
    rcases hstep with rfl | rfl | rfl | rfl
    · rintro u ⟨⟩
      exact hpixel ..
    · rintro u ⟨⟩
      exact hpixel ..
    · trivial
    · trivial
  obtain ⟨hrun, -, hreadout, hmade, hchannels, -⟩ := afterAll_inBounds v valuelessSteps hv hsteps
  have made := hmade _ (.wellKnown .beauty)
  refine ⟨hv, hsteps, hrun, (hchannels _ made).mergeWeighted_ok _ made rfl rfl, ?_⟩
  rw [hreadout]
  decide +kernel

end FrameStore

end ProgressiveFrame
