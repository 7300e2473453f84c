import ProgressiveFrame.Proofs.Channel.Fill
import ProgressiveFrame.Proofs.Store.History
import ProgressiveFrame.Store.Readout

/-!
# Readouts leave no mark

A readout that extrapolates writes into the store, and what it writes is kept. No later readout that
extrapolates shows it.

* `FrameStore.Resembles`: stores whose channels differ at most in gaps. Of the well-known channels those that
  are `watched` are compared, the others only in shape.
* `Resembles.serve`: a request keeps two stores alike, as long as no watched channel keeps its values over a
  reset. `Resembles.readout_right`: so does a readout of one of them alone.
* `FrameStore.Formed`: every channel has the shape that the store gives it. Requests and readouts keep this.
* `Resembles.afterAll_withoutReadouts`: so a run and the same run without its readouts end alike.
* `readout_withoutReadouts`: a readout that extrapolates gives the same after both.
-/

namespace ProgressiveFrame

/-- The AOVs are of one kind, and channels of their own differ at most in gaps. -/
inductive Aov.Resembles (layout : TileLayout) : Aov → Aov → Prop where
  | owned {c c' : Channel} (sized : c.Sized layout) (channel : c.Resembles true c') :
    Aov.Resembles layout (.owned c) (.owned c')
  | reference (kind : ReferenceKind) : Aov.Resembles layout (.reference kind) (.reference kind)

theorem Aov.Resembles.symm {layout : TileLayout} {aov aov' : Aov} (h : aov.Resembles layout aov') :
    aov'.Resembles layout aov := by
  cases h with
  | owned sized channel => exact .owned (channel.sized sized) channel.symm
  | reference kind => exact .reference kind

namespace FrameStore

variable {watched : WellKnown → Bool} {s s' : FrameStore} {name : String} {index : Nat} {aov aov' : Aov}

/-! ## Resemblance -/

/-- The second store has the AOVs of the first one in their order, and its channels differ at most in gaps, those
that are not watched in any values. -/
structure Resembles (watched : WellKnown → Bool) (s s' : FrameStore) : Prop where
  viewport : s'.viewport = s.viewport
  sized : ∀ kind, (s.channel kind).Sized s.layout
  channel : ∀ kind, (s.channel kind).Resembles (watched kind) (s'.channel kind)
  aovNames : s'.aovNames = s.aovNames
  aov : ∀ index, Option.Rel (Aov.Resembles s.layout) (s.aovAt? index) (s'.aovAt? index)

namespace Resembles

theorem layout (h : s.Resembles watched s') : s'.layout = s.layout := by
  rw [FrameStore.layout, FrameStore.layout, h.viewport]

theorem aovIndex? (h : s.Resembles watched s') (name : String) : s'.aovIndex? name = s.aovIndex? name := by
  rw [aovIndex?_eq_findIdx?, aovIndex?_eq_findIdx?, h.aovNames]

theorem empty (watched : WellKnown → Bool) (v : Viewport) : (FrameStore.empty v).Resembles watched (.empty v) where
  viewport := rfl
  sized kind := by
    rw [FrameStore.channel, FrameStore.empty, PerWellKnown.get_ofFn]
    exact .empty _ _
  channel kind := .refl _ _
  aovNames := rfl
  aov _ := .none

theorem symm (h : s.Resembles watched s') : s'.Resembles watched s where
  viewport := h.viewport.symm
  sized kind := h.layout ▸ (h.channel kind).sized (h.sized kind)
  channel kind := (h.channel kind).symm
  aovNames := h.aovNames.symm
  aov index := by
    have hindex := h.aov index
    rw [h.layout]
    generalize s.aovAt? index = entry, s'.aovAt? index = entry' at hindex
    cases hindex with
    | none => exact .none
    | some haov => exact .some haov.symm

/-- A store that is sound resembles itself, whichever channels are watched. -/
theorem self (h : s.Resembles watched s) (watched' : WellKnown → Bool) : s.Resembles watched' s :=
  { h with channel := fun _ => .refl _ _ }

/-! ## Writes -/

theorem setChannel (h : s.Resembles watched s') {kind : WellKnown} {c c' : Channel} (hs : c.Sized s.layout)
    (hc : c.Resembles (watched kind) c') : (s.setChannel kind c).Resembles watched (s'.setChannel kind c') where
  viewport := h.viewport
  sized other := by
    rw [channel_setChannel]
    split
    · exact hs
    · exact h.sized other
  channel other := by
    rw [channel_setChannel, channel_setChannel]
    split
    · rename_i heq
      exact heq ▸ hc
    · exact h.channel other
  aovNames := h.aovNames
  aov := h.aov

theorem setAov (h : s.Resembles watched s') (index : Nat) (ha : aov.Resembles s.layout aov') :
    (s.setAov index aov).Resembles watched (s'.setAov index aov') where
  viewport := h.viewport
  sized := h.sized
  channel := h.channel
  aovNames := by rw [aovNames_setAov, aovNames_setAov, h.aovNames]
  aov other := by
    rw [aovAt?_setAov, aovAt?_setAov]
    have hother := h.aov other
    generalize s.aovAt? other = entry, s'.aovAt? other = entry' at hother
    split
    · cases hother with
      | none => exact .none
      | some _ => exact .some ha
    · exact hother

/-- A name is new in both stores or in neither, and gets the same index. -/
theorem sightAov (h : s.Resembles watched s') (name : String) (ha : aov.Resembles s.layout aov) :
    (s.sightAov name aov).1.Resembles watched (s'.sightAov name aov).1 ∧
      (s'.sightAov name aov).2 = (s.sightAov name aov).2 := by
  have hsize : s'.aovs.size = s.aovs.size := by rw [← size_aovNames, h.aovNames, size_aovNames]
  unfold FrameStore.sightAov
  rw [h.aovIndex?]
  cases s.aovIndex? name with
  | some index => exact ⟨h, rfl⟩
  | none =>
    refine ⟨⟨h.viewport, h.sized, h.channel, ?_, fun index => ?_⟩, hsize⟩
    · have hnames := h.aovNames
      simp only [FrameStore.aovNames, Array.map_push] at hnames ⊢
      rw [hnames]
    · have hindex := h.aov index
      simp only [aovAt?, Array.getElem?_push, hsize] at hindex ⊢
      split
      · exact .some ha
      · exact hindex

theorem mergeUpdate (h : s.Resembles watched s') (kind : WellKnown) (u : TileUpdate) :
    (s.mergeUpdate kind u).1.Resembles watched (s'.mergeUpdate kind u).1 := by
  unfold FrameStore.mergeUpdate
  rcases (h.channel kind).mergeUpdate (h.sized kind) u with ⟨e, he, he'⟩ | ⟨c, c', hc, hc', hr⟩
  · rw [he, he']
    exact h
  · rw [hc, hc']
    exact h.setChannel ((h.sized kind).mergeUpdate hc) hr

theorem mergeAov (h : s.Resembles watched s') (name : String) (u : TileUpdate) :
    (s.mergeAov name u).1.Resembles watched (s'.mergeAov name u).1 := by
  have hnew : (Aov.owned (.empty s.layout u.numChan)).Resembles s.layout (.owned (.empty s.layout u.numChan)) :=
    .owned (.empty _ _) (.refl _ _)
  obtain ⟨hsight, hindex⟩ := h.sightAov name hnew
  have haov := hsight.aov (s.sightAov name (.owned (.empty s.layout u.numChan))).2
  simp only [FrameStore.mergeAov, h.layout, hindex]
  generalize s.sightAov name (.owned (.empty s.layout u.numChan)) = t at hsight haov
  generalize s'.sightAov name (.owned (.empty s.layout u.numChan)) = t' at hsight haov
  generalize t.1.aovAt? t.2 = before, t'.1.aovAt? t.2 = before' at haov
  cases haov with
  | none => exact hsight
  | some haov =>
    cases haov with
    | reference kind => exact hsight
    | owned sized channel =>
      simp only
      rcases channel.mergeUpdate sized u with ⟨e, he, he'⟩ | ⟨c, c', hc, hc', hr⟩
      · rw [he, he']
        exact hsight
      · rw [hc, hc']
        exact hsight.setAov t.2 (.owned (sized.mergeUpdate hc) hr)

theorem reset (h : s.Resembles watched s') {mode : ResetMode}
    (hmode : mode = .preserveColor → ∀ kind, kind.isColor = true → watched kind = false) :
    (s.reset mode).Resembles watched (s'.reset mode) where
  viewport := h.viewport
  sized kind := by
    rw [channel_reset]
    split
    · exact (h.sized kind).resetCoverage
    · exact (h.sized kind).reset
  channel kind := by
    rw [channel_reset, channel_reset]
    split
    · rename_i hkeeps
      rw [hmode hkeeps.1 kind hkeeps.2]
      exact (h.channel kind).resetCoverage
    · rw [(h.channel kind).reset_eq]
      exact .refl _ _
  aovNames := by rw [aovNames_reset, aovNames_reset, h.aovNames]
  aov index := by
    have hindex := h.aov index
    rw [aovAt?_reset, aovAt?_reset, layout_reset]
    generalize s.aovAt? index = entry, s'.aovAt? index = entry' at hindex
    cases hindex with
    | none => exact .none
    | some haov =>
      cases haov with
      | reference kind => exact .some (.reference kind)
      | owned sized channel =>
        simp only [Option.map_some, Aov.restart, Bool.false_eq_true, if_false, channel.reset_eq]
        exact .some (.owned sized.reset (.refl _ _))

/-- A request keeps two stores alike, unless a watched channel keeps its values over a reset. -/
theorem serve (h : s.Resembles watched s') {q : StoreRequest}
    (hq : q = .reset .preserveColor → ∀ kind, kind.isColor = true → watched kind = false) :
    (s.serve q).1.Resembles watched (s'.serve q).1 := by
  cases q with
  | reset mode => exact h.reset fun hmode => hq (hmode ▸ rfl)
  | write w =>
    cases w with
    | update kind u => exact h.mergeUpdate kind u
    | updateAov name u => exact h.mergeAov name u
    | reference name kind => exact (h.sightAov name (.reference kind)).1

end Resembles

/-! ## Readouts -/

/-- What holds a source in two stores that resemble each other. -/
inductive SameHolder (s s' : FrameStore) : Except FrameError Holder → Except FrameError Holder → Prop where
  | error (e : FrameError) : SameHolder s s' (.error e) (.error e)
  | wellKnown (kind : WellKnown) (first last : Nat) :
    SameHolder s s' (.ok (.wellKnown kind first last)) (.ok (.wellKnown kind first last))
  | owned {index : Nat} {c c' : Channel} (found : s.aovAt? index = some (.owned c)) (sized : c.Sized s.layout)
    (channel : c.Resembles true c') : SameHolder s s' (.ok (.owned index c)) (.ok (.owned index c'))

namespace Resembles

theorem holder_ofAov (h : s.Resembles watched s') (index : Nat) (e : FrameError) :
    SameHolder s s'
      (match s.aovAt? index with | some aov => .ok (.ofAov index aov) | none => .error e)
      (match s'.aovAt? index with | some aov => .ok (.ofAov index aov) | none => .error e) := by
  have hindex := h.aov index
  generalize hentry : s.aovAt? index = entry at hindex
  generalize s'.aovAt? index = entry' at hindex
  cases hindex with
  | none => exact .error e
  | some haov =>
    cases haov with
    | reference kind => exact .wellKnown ..
    | owned sized channel => exact .owned hentry sized channel

theorem holder (h : s.Resembles watched s') (source : ReadoutSource) :
    SameHolder s s' (s.holder source) (s'.holder source) := by
  cases source with
  | channel kind => exact .wellKnown ..
  | aovIndex index => exact h.holder_ofAov index _
  | aovName name =>
    simp only [FrameStore.holder, h.aovIndex?]
    cases s.aovIndex? name with
    | none => exact .error _
    | some index => exact h.holder_ofAov index _

/-- A readout of the second store alone keeps the stores alike. -/
theorem readout_right (h : s.Resembles watched s') (source : ReadoutSource) (o : Orientation) (roi : Option Viewport)
    (extrapolate : Bool) : s.Resembles watched (s'.readout source o roi extrapolate).1 := by
  have hholder := h.holder source
  unfold FrameStore.readout
  generalize s.holder source = held, s'.holder source = held' at hholder
  cases hholder with
  | error e => exact h
  | wellKnown kind first last =>
    refine ⟨h.viewport, h.sized, fun other => ?_, h.aovNames, h.aov⟩
    simp only [channel_setChannel]
    split
    · rename_i heq
      subst heq
      split
      · exact (h.channel other).extrapolate_right _
      · exact h.channel other
    · exact h.channel other
  | @owned index c c' found sized channel =>
    refine ⟨h.viewport, h.sized, h.channel, (aovNames_setAov ..).trans h.aovNames, fun other => ?_⟩
    have hother := h.aov other
    simp only [aovAt?_setAov]
    split
    · rename_i heq
      rw [heq, found] at hother ⊢
      generalize s'.aovAt? index = entry' at hother
      cases hother with
      | some _ =>
        refine .some (.owned sized ?_)
        split
        · exact channel.extrapolate_right _
        · exact channel
    · exact hother

/-- A readout that extrapolates gives the same in both stores, unless the channel is not watched. -/
theorem readout_eq (h : s.Resembles watched s') {source : ReadoutSource}
    (hw : ∀ kind first last, s.holder source = .ok (.wellKnown kind first last) → watched kind = true)
    (o : Orientation) (roi : Option Viewport) :
    (s'.readout source o roi true).2 = (s.readout source o roi true).2 := by
  have hholder := h.holder source
  unfold FrameStore.readout
  rw [h.viewport]
  generalize s.holder source = held, s'.holder source = held' at hholder hw
  cases hholder with
  | error e => rfl
  | wellKnown kind first last =>
    have hchannel := h.channel kind
    rw [hw kind first last rfl] at hchannel
    exact congrArg Except.ok (hchannel.untile_extrapolate (h.sized kind) o first last)
  | @owned index c c' found sized channel =>
    have hnum : c'.numChan = c.numChan := by rw [channel.eq_with_data]
    simp only [if_true, Channel.numChan_extrapolate, hnum]
    exact congrArg Except.ok (channel.untile_extrapolate sized o 0 c.numChan)

end Resembles

/-! ## The shape of a store -/

/-- Every channel has the shape that the store gives it. -/
structure Formed (s : FrameStore) : Prop where
  alike : s.Resembles (fun _ => true) s
  numChan : ∀ kind, (s.channel kind).numChan = kind.numChan

theorem formed_empty (v : Viewport) : (FrameStore.empty v).Formed where
  alike := .empty _ v
  numChan kind := by
    rw [channel, empty, PerWellKnown.get_ofFn]
    rfl

theorem Formed.serve (hf : s.Formed) (q : StoreRequest) : (s.serve q).1.Formed where
  alike := ((hf.alike.self fun _ => false).serve fun _ _ _ => rfl).self _
  numChan kind := by
    cases q with
    | write w => exact (s.numChan_write w kind).trans (hf.numChan kind)
    | reset mode => exact (s.numChan_reset mode kind).trans (hf.numChan kind)

theorem numChan_readout (s : FrameStore) (source : ReadoutSource) (o : Orientation) (roi : Option Viewport)
    (extrapolate : Bool) (kind : WellKnown) :
    ((s.readout source o roi extrapolate).1.channel kind).numChan = (s.channel kind).numChan := by
  unfold readout
  cases s.holder source with
  | error e => rfl
  | ok held =>
    cases held with
    | owned index c => rfl
    | wellKnown other first last =>
      simp only [channel_setChannel]
      split
      · rename_i heq
        subst heq
        split
        · exact Channel.numChan_extrapolate ..
        · rfl
      · rfl

theorem Formed.readout (hf : s.Formed) (source : ReadoutSource) (o : Orientation) (roi : Option Viewport)
    (extrapolate : Bool) : (s.readout source o roi extrapolate).1.Formed where
  alike := (hf.alike.readout_right source o roi extrapolate).symm.readout_right source o roi extrapolate
  numChan kind := (s.numChan_readout source o roi extrapolate kind).trans (hf.numChan kind)

end FrameStore

/-! ## Runs with readouts -/

/-- What can happen to a store. -/
inductive StoreStep where
  | request (q : StoreRequest)
  | readout (source : ReadoutSource) (o : Orientation) (roi : Option Viewport) (extrapolate : Bool)

namespace StoreStep

/-- Whether the step reads the store out. -/
def isReadout : StoreStep → Bool
  | .request _ => false
  | .readout .. => true

/-- The steps of a run that are requests. -/
def withoutReadouts (steps : List StoreStep) : List StoreStep := steps.filter (!·.isReadout)

/-- Whether no step starts a frame that keeps colours. -/
def TakesColors (steps : List StoreStep) : Prop := .request (.reset .preserveColor) ∉ steps

end StoreStep

namespace FrameStore

variable {watched : WellKnown → Bool} {s s' : FrameStore}

/-- The store after a step. -/
def after (s : FrameStore) : StoreStep → FrameStore
  | .request q => (s.serve q).1
  | .readout source o roi extrapolate => (s.readout source o roi extrapolate).1

/-- The store after a run. -/
def afterAll (s : FrameStore) (steps : List StoreStep) : FrameStore := steps.foldl after s

/-- Whether the values of a source stand in a channel that shows colour, which a reset may keep. -/
def holdsInColor (s : FrameStore) (source : ReadoutSource) : Bool :=
  match s.holder source with
  | .ok (.wellKnown kind _ _) => kind = .beauty ∨ kind = .beautyOdd
  | _ => false

/-- A run and the same run without its readouts end alike. -/
theorem Resembles.afterAll_withoutReadouts (h : s.Resembles watched s') {steps : List StoreStep}
    (hsteps : .request (.reset .preserveColor) ∈ steps → ∀ kind, kind.isColor = true → watched kind = false) :
    (s.afterAll (StoreStep.withoutReadouts steps)).Resembles watched (s'.afterAll steps) := by
  induction steps generalizing s s' with
  | nil => exact h
  | cons step steps ih =>
    have htail : .request (.reset .preserveColor) ∈ steps → ∀ kind, kind.isColor = true → watched kind = false :=
      fun hmem => hsteps (List.mem_cons_of_mem step hmem)
    cases step with
    | request q => exact ih (h.serve fun hq => hsteps (hq ▸ List.mem_cons_self)) htail
    | readout source o roi extrapolate => exact ih (h.readout_right source o roi extrapolate) htail

/-- A store that is sound stays sound, whatever happens to it. -/
theorem Resembles.afterAll_self (h : s.Resembles watched s) (steps : List StoreStep) :
    (s.afterAll steps).Resembles watched (s.afterAll steps) := by
  induction steps generalizing s with
  | nil => exact h
  | cons step steps ih =>
    cases step with
    | request q => exact ih (((h.self fun _ => false).serve fun _ _ _ => rfl).self watched)
    | readout source o roi extrapolate =>
      have hright := h.readout_right source o roi extrapolate
      exact ih (hright.symm.readout_right source o roi extrapolate)

/-- The channels keep their shapes, whatever happens to the store. -/
theorem Formed.afterAll (hf : s.Formed) (steps : List StoreStep) : (s.afterAll steps).Formed := by
  induction steps generalizing s with
  | nil => exact hf
  | cons step steps ih =>
    cases step with
    | request q => exact ih (hf.serve q)
    | readout source o roi extrapolate => exact ih (hf.readout source o roi extrapolate)

/-- Readouts leave no mark. Take any store that can come about, and any run from it. A readout that extrapolates
then gives exactly what it gives after the same run without its readouts: for every source if no reset of the
run kept colours, and in any case for a source that does not stand in a colour channel. -/
theorem readout_withoutReadouts (v : Viewport) (past steps : List StoreStep) (source : ReadoutSource)
    (o : Orientation) (roi : Option Viewport) :
    let s := (FrameStore.empty v).afterAll past
    let run := s.afterAll steps
    let bare := s.afterAll (StoreStep.withoutReadouts steps)
    (StoreStep.TakesColors steps → (run.readout source o roi true).2 = (bare.readout source o roi true).2) ∧
      (run.holdsInColor source = false → (run.readout source o roi true).2 = (bare.readout source o roi true).2) := by
  intro s run bare
  have hself : s.Resembles (fun _ => true) s := (Resembles.empty _ v).afterAll_self past
  refine ⟨fun htakes => ?_, fun hcolor => ?_⟩
  · exact (hself.afterAll_withoutReadouts fun hmem => absurd hmem htakes).readout_eq (fun _ _ _ _ => rfl) o roi
  · have hbare : bare.Resembles (!·.isColor) run :=
      (hself.self _).afterAll_withoutReadouts fun _ kind hkind => by simp [hkind]
    refine hbare.readout_eq (fun kind first last hholder => ?_) o roi
    have hsame := hbare.holder source
    rw [hholder] at hsame
    generalize hheld : run.holder source = held at hsame
    cases hsame with
    | wellKnown _ _ _ =>
      simp only [holdsInColor, hheld, decide_eq_false_iff_not, ← WellKnown.isColor_iff, Bool.not_eq_true] at hcolor
      rw [hcolor]
      rfl

/-- The left one of two pixels arrives, and both are read out. -/
def twoPixelReadouts : List StoreStep :=
  [.request (.write (.update .beauty (.onePixel ⟨2, 1⟩ 0 0 #[⟨1⟩, ⟨2⟩, ⟨3⟩, ⟨4⟩]))),
    .request (.write (.update .weight (.onePixel ⟨2, 1⟩ 0 0 #[⟨5⟩]))),
    .readout (.channel .beauty) .bottomUp none true, .readout (.channel .weight) .topDown none true]

/-- The right pixel has a weight that was invented, in one of the runs. It is seen neither then nor after a reset
that keeps colours. -/
theorem readout_withoutReadouts_twoPixels :
    let s := FrameStore.empty ⟨0, 0, 1, 0⟩
    let run := s.afterAll twoPixelReadouts
    let bare := s.afterAll (StoreStep.withoutReadouts twoPixelReadouts)
    let restarted := twoPixelReadouts ++ [.request (.reset .preserveColor)]
    (run.pixel? .weight 1 0 = some #[⟨5⟩] ∧ bare.pixel? .weight 1 0 = some #[⟨0⟩]) ∧
      (run.readout (.channel .beauty) .topDown none true).2 = (bare.readout (.channel .beauty) .topDown none true).2 ∧
      ((s.afterAll restarted).readout (.channel .weight) .topDown none true).2 =
        ((s.afterAll (StoreStep.withoutReadouts restarted)).readout (.channel .weight) .topDown none true).2 := by
  intro s run bare restarted
  refine ⟨⟨by decide +kernel, by decide +kernel⟩, ?_, ?_⟩
  · refine (readout_withoutReadouts ⟨0, 0, 1, 0⟩ [] twoPixelReadouts (.channel .beauty) .topDown none).1 ?_
    simp [StoreStep.TakesColors, twoPixelReadouts]
  · exact (readout_withoutReadouts ⟨0, 0, 1, 0⟩ [] restarted (.channel .weight) .topDown none).2 rfl

end FrameStore

end ProgressiveFrame
