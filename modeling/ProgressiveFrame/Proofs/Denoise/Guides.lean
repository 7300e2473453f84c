import ProgressiveFrame.Proofs.Denoise.Readouts
import ProgressiveFrame.Proofs.Session.Isolation
import ProgressiveFrame.Proofs.Session.Memory
import ProgressiveFrame.Proofs.Session.Shown

/-!
# The buffers that a denoiser is given

A denoiser is given the beauty channel with up to two guides. Each of them is read out on its own, after the ones before
it have been filled, and the name of a guide may have been told long before its AOV came in, if it ever does.

* `Guide`: the two guides, with all that is done in the same way for both.
* `DenoisePipeline.exists_guide_iff`, `shows_of_guide`: when a guide is passed, and what it shows.
* `DenoiseRequest.Matches`: the buffers of a request have one size and show the same pixels.
* `ViewerEvent`: all that can happen to a session and to its store, with pipelines that read out of it.
* `ViewerEvent.Foreseen`: the store has its shape, and the session remembers the guides that the latest start of a
  frame has named. Every event keeps this (`Foreseen.apply`).
* `ViewerEvent.matches_applyAll`: what a denoiser is asked for matches, whatever has happened before.
-/

namespace ProgressiveFrame

/-! ## Guides -/

/-- The pictures that can guide a denoiser. -/
inductive Guide where
  | albedo
  | normal
deriving DecidableEq

namespace Guide

/-- Whether a mode asks for the guide. -/
def isWanted : Guide → DenoiseMode → Bool
  | .albedo, mode => mode.wantsAlbedo
  | .normal, mode => mode.wantsNormal

/-- The AOV that a message names for the guide. -/
def input : Guide → FrameHeader → String
  | .albedo, h => h.albedoInput
  | .normal, h => h.normalInput

/-- The AOV that a session remembers for the guide. -/
def remembered : Guide → SessionState → String
  | .albedo, s => s.albedoInput
  | .normal, s => s.normalInput

/-- Whether a denoiser is built to use the guide. -/
def isUsed : Guide → DenoiserConfig → Bool
  | .albedo, config => config.useAlbedo
  | .normal, config => config.useNormal

/-- The values of the guide that a denoiser is given. -/
def values? : Guide → DenoiserInput → Option (Array Binary32)
  | .albedo, input => input.albedo
  | .normal, input => input.normal

end Guide

namespace FrameStore

variable {s : FrameStore} {name : String}

/-- There is an AOV of that name which can guide a denoiser: it has three values of its own for each pixel, or is an
alias of beauty. -/
def HasGuide (s : FrameStore) (name : String) : Prop :=
  (s.aov? name).map Aov.kind = some (.owned 3) ∨ (s.aov? name).map Aov.kind = some (.reference .beauty)

instance (s : FrameStore) (name : String) : Decidable (s.HasGuide name) := inferInstanceAs (Decidable (_ ∨ _))

theorem hasGuide_iff : s.HasGuide name ↔ ∃ found, s.slice (.aovName name) = .ok found ∧ found.count = 3 := by
  rw [HasGuide, slice]
  cases s.aov? name with
  | none => simp
  | some aov =>
    cases aov with
    | owned c => simp [aovSlice, Slice.count, Aov.kind]
    | reference kind => cases kind <;> simp [aovSlice, Slice.count, Aov.kind]

end FrameStore

namespace DenoisePipeline

variable {μ : Type} {c c' : Controller μ} {wanted : Bool} {name : String} {o : Orientation} {r : Readout}

theorem guide_eq (c : Controller μ) (wanted : Bool) (name : String) (o : Orientation) : guide c wanted name o =
    if wanted && name != "" then
      ((c.readout (.aovName name) o none).1,
        (c.readout (.aovName name) o none).2.toOption.filter fun r => r.numChan = 3)
    else (c, none) := by
  unfold guide
  split
  · rcases c.readout (.aovName name) o none with ⟨c', e | r⟩
    · rfl
    · simp only [Except.toOption, Option.filter, decide_eq_true_eq]
  · rfl

/-- What was read out for a guide makes no difference to what is read out afterwards. -/
theorem readout_after_guide (hf : c.store.Formed) (wanted : Bool) (name : String) (source : ReadoutSource)
    (o o' : Orientation) :
    ((guide c wanted name o').1.readout source o none).2 = (c.readout source o none).2 := by
  rw [guide_eq]
  split
  · exact Controller.readout_after_readout hf _ source o o' none
  · rfl

theorem guide_congr (h : ∀ source, (c'.readout source o none).2 = (c.readout source o none).2) :
    (guide c' wanted name o).2 = (guide c wanted name o).2 := by
  rw [guide_eq, guide_eq, h]
  split <;> rfl

theorem guide_eq_some_iff : (guide c wanted name o).2 = some r ↔
    wanted = true ∧ name ≠ "" ∧ (c.readout (.aovName name) o none).2 = .ok r ∧ r.numChan = 3 := by
  have hfilter : (c.readout (.aovName name) o none).2.toOption.filter (fun r => r.numChan = 3) = some r ↔
      (c.readout (.aovName name) o none).2 = .ok r ∧ r.numChan = 3 := by
    cases (c.readout (.aovName name) o none).2 <;> simp [Except.toOption, Option.filter_eq_some_iff]
  rw [guide_eq]
  by_cases hname : name = ""
  · simp [hname]
  · cases wanted <;> simp [hname, hfilter]

/-- A guide is passed exactly if it is wanted and named, and there is an AOV of that name for it. -/
theorem exists_guide_iff (hf : c.store.Formed) : (∃ r, (guide c wanted name o).2 = some r) ↔
    wanted = true ∧ name ≠ "" ∧ c.store.HasGuide name := by
  simp only [guide_eq_some_iff, exists_and_left, FrameStore.hasGuide_iff]
  refine and_congr_right fun _ => and_congr_right fun _ => ?_
  cases hslice : c.store.slice (.aovName name) with
  | error e => simp [Controller.readout_of_error hslice o]
  | ok found =>
    obtain ⟨r, hr, hshows⟩ := Controller.readout_of_slice hf hslice o
    simp [hr, hshows.numChan]

/-- A guide shows the AOV of its name. -/
theorem shows_of_guide (hf : c.store.Formed) (h : (guide c wanted name o).2 = some r) :
    ∃ found, c.store.slice (.aovName name) = .ok found ∧ found.count = 3 ∧ (c.view o).Shows r (c.shown found) := by
  obtain ⟨-, -, hread, hnum⟩ := guide_eq_some_iff.mp h
  cases hslice : c.store.slice (.aovName name) with
  | error e =>
    rw [Controller.readout_of_error hslice o] at hread
    cases hread
  | ok found =>
    obtain ⟨r', hr', hshows⟩ := Controller.readout_of_slice hf hslice o
    cases hr'.symm.trans hread
    exact ⟨found, rfl, by rw [← hnum, hshows.numChan, Controller.count_shown], hshows⟩

end DenoisePipeline

/-! ## Requests -/

/-- However a request is answered, there are as many values as the beauty channel has, as long as runs give as many. -/
theorem CachedDenoiser.size_data_process {d : CachedDenoiser} {a : DenoiseAnswers} {q : DenoiseRequest}
    (h : ∀ output, a.run q.input = .ok output → output.size = q.input.beauty.size) :
    (d.process a q).data.size = q.input.beauty.size := by
  have hcall := d.call a q
  generalize d.process a q = step at hcall
  cases hcall with
  | unbuilt _ _ | skipped _ _ | declined _ _ _ _ | failed _ _ _ _ => rfl
  | reused _ _ _ hsize => exact hsize
  | denoised _ _ _ hrun => exact h _ hrun

namespace ReadoutRecord

variable {μ : Type} {r : ReadoutRecord μ}

/-- The readout of a guide, as it would be without any other. -/
def guide? (r : ReadoutRecord μ) (g : Guide) : Option Readout :=
  (DenoisePipeline.guide r.controller (g.isWanted r.pipeline.mode) (g.remembered r.controller.session) r.orientation).2

/-- The guides do not depend on each other, nor on the beauty channel. -/
theorem guides_eq (hf : r.controller.store.Formed) : r.guides.2 = (r.guide? .albedo, r.guide? .normal) := by
  have hbeauty : ∀ source, ((r.controller.readout (.channel .beauty) r.orientation none).1.readout source
      r.orientation none).2 = (r.controller.readout source r.orientation none).2 :=
    fun source => Controller.readout_after_readout hf _ source _ _ none
  have halbedo (wanted : Bool) (name : String) (source : ReadoutSource) :=
    DenoisePipeline.readout_after_guide (Controller.formed_readout hf (.channel .beauty) r.orientation none) wanted name
      source r.orientation r.orientation
  refine Prod.ext (DenoisePipeline.guide_congr hbeauty) ?_
  -- The normal is read out after the albedo, and this after the beauty channel.
  simp only [guides, DenoisePipeline.guides, DenoisePipeline.session_guide, Controller.session_readout]
  exact DenoisePipeline.guide_congr fun source => (halbedo _ _ source).trans (hbeauty source)

theorem values?_request (hf : r.controller.store.Formed) (g : Guide) :
    g.values? r.request.input = (r.guide? g).map (·.data) := by
  rw [request, guides_eq hf]
  cases g <;> rfl

theorem isUsed_request (hf : r.controller.store.Formed) (g : Guide) :
    g.isUsed r.request.config = (r.guide? g).isSome := by
  rw [request, guides_eq hf]
  cases g <;> rfl

end ReadoutRecord

/-- What a denoiser is asked for matches what is read out of the beauty channel. The message is the latest one that has
started a frame. -/
structure DenoiseRequest.Matches {μ : Type} (q : DenoiseRequest) (c : Controller μ) (opening : Option Message)
    (mode : DenoiseMode) (o : Orientation) (raw : Readout) : Prop where
  width : q.config.width = raw.width
  height : q.config.height = raw.height
  size_beauty : q.input.beauty.size = 4 * (raw.width * raw.height)
  isUsed_iff : ∀ g : Guide, g.isUsed q.config = true ↔ ∃ values, g.values? q.input = some values
  passed_iff : ∀ g : Guide, (∃ values, g.values? q.input = some values) ↔
    g.isWanted mode = true ∧ ∃ m, opening = some m ∧ g.input m.header ≠ "" ∧ c.store.HasGuide (g.input m.header)
  size_guide : ∀ (g : Guide) values, g.values? q.input = some values → values.size = 3 * (raw.width * raw.height)
  /-- At each position there is one pixel. The beauty channel has its four values of it there, and a guide its three
  values. -/
  pixel : ∀ position < raw.width * raw.height, ∃ pixel, (c.view o).pixel? position = some pixel ∧
    (∀ k < 4, q.input.beauty[position * 4 + k]? = (c.shown ⟨c.store.channel .beauty, 0, 4⟩).at? pixel k) ∧
      ∀ (g : Guide) values, g.values? q.input = some values → ∃ m found, opening = some m ∧
        c.store.slice (.aovName (g.input m.header)) = .ok found ∧
          ∀ k < 3, values[position * 3 + k]? = (c.shown found).at? pixel k

/-! ## Events -/

/-- What can happen to a session and to its store. -/
inductive ViewerEvent where
  | session (e : SessionEvent)
  /-- The store is used without the session. -/
  | store (step : StoreStep)
  /-- A pipeline reads out, in whatever state it is. -/
  | denoise (p : DenoisePipeline) (o : Orientation) (a : DenoiseAnswers)

namespace ViewerEvent

variable {μ : Type} {decoders : Decoders μ} {c : Controller μ} {opening : Option Message}

/-- The image message that starts a frame, if the event is one. -/
def opening? : ViewerEvent → Option Message
  | .session (.message m) => if m.isImage && m.header.status == .started then some m else none
  | _ => none

/-- The latest image message that has started a frame. -/
def lastOpening? (events : List ViewerEvent) : Option Message := (events.filterMap opening?).getLast?

theorem lastOpening?_cons (e : ViewerEvent) (events : List ViewerEvent) :
    lastOpening? (e :: events) = (lastOpening? events).or e.opening? := by
  rw [lastOpening?, lastOpening?, List.filterMap_cons]
  cases e.opening? with
  | none => exact (Option.or_none).symm
  | some m =>
    rw [List.getLast?_cons]
    cases (events.filterMap opening?).getLast? <;> rfl

/-- The session after an event. -/
def apply (decoders : Decoders μ) (c : Controller μ) : ViewerEvent → Controller μ
  | .session e => c.after decoders e
  | .store step => { c with store := c.store.after step }
  | .denoise p o a => (p.readout a c o).2.1

/-- The session after all events. -/
def applyAll (decoders : Decoders μ) (c : Controller μ) (events : List ViewerEvent) : Controller μ :=
  events.foldl (apply decoders) c

/-- The store has its shape, and the session remembers what the latest message that has started a frame names. -/
structure Foreseen (c : Controller μ) (opening : Option Message) : Prop where
  formed : c.store.Formed
  remembered : ∀ g : Guide, g.remembered c.session = (opening.map fun m => g.input m.header).getD ""

/-- What a session remembers of a guide is what its message names, if this starts a frame. -/
theorem remembered_noteFrame (s : SessionState) (h : FrameHeader) (a : Arrival) (g : Guide) :
    g.remembered (s.noteFrame h a) = if h.status = .started then g.input h else g.remembered s := by
  cases g <;> rfl

theorem remembered_take (decoders : Decoders μ) (c : Controller μ) (m : Message) (g : Guide) :
    g.remembered (c.take decoders m).next.session =
      if m.isImage && m.header.status == .started then g.input m.header else g.remembered c.session := by
  have htook := c.took decoders m
  generalize c.take decoders m = step at htook
  cases htook with
  | aside hm =>
    simp only [hm, Bool.false_and, Bool.false_eq_true, if_false]
    rw [SessionState.noteNewest_eq]
    cases g <;> rfl
  | delivered hm _ =>
    have hnoted := remembered_noteFrame c.session m.header m.arrival g
    simp only [hm, Bool.true_and, beq_iff_eq]
    cases g <;> exact hnoted
  | refused hm _ =>
    simp only [hm, Bool.true_and, beq_iff_eq, Controller.session_beginMessage]
    exact remembered_noteFrame ..

/-- Every event keeps this. -/
theorem Foreseen.apply (h : Foreseen c opening) (e : ViewerEvent) :
    Foreseen (e.apply decoders c) (e.opening?.or opening) := by
  cases e with
  | session e =>
    refine ⟨Controller.formed_after h.formed e, fun g => ?_⟩
    cases e with
    | message m =>
      refine (remembered_take decoders c m g).trans ?_
      rw [opening?]
      split
      · rfl
      · exact h.remembered g
    | readout source o roi => exact h.remembered g
    | setResetMode mode => exact h.remembered g
  | store step => exact ⟨h.formed.afterAll [step], h.remembered⟩
  | denoise p o a =>
    have hsession : (p.readout a c o).2.1.session = c.session ∧ (p.readout a c o).2.1.store.Formed := by
      cases he : p.mode.isEnabled with
      | false =>
        rw [(ReadoutRecord.mk p c o a).readout_eq_raw he]
        exact ⟨rfl, Controller.formed_readout h.formed (.channel .beauty) o none⟩
      | true =>
        rw [(ReadoutRecord.mk p c o a).readout_eq he]
        exact ⟨ReadoutRecord.session_guides _, ReadoutRecord.formed_guides h.formed⟩
    exact ⟨hsession.2, fun g => (congrArg g.remembered hsession.1).trans (h.remembered g)⟩

theorem Foreseen.applyAll (h : Foreseen c opening) (events : List ViewerEvent) :
    Foreseen (ViewerEvent.applyAll decoders c events) ((lastOpening? events).or opening) := by
  induction events generalizing c opening with
  | nil => exact h
  | cons e events ih =>
    rw [lastOpening?_cons, Option.or_assoc]
    exact ih (h.apply e)

theorem foreseen_new (resetMode : ResetMode) (parallel : Bool) (window : Duration) (memory : μ) :
    Foreseen (.new resetMode parallel window memory) none :=
  ⟨FrameStore.formed_empty .origin, fun g => by cases g <;> rfl⟩

section Request

variable {r : ReadoutRecord μ}

theorem Foreseen.exists_guide?_iff (h : Foreseen r.controller opening) (g : Guide) :
    (∃ readout, r.guide? g = some readout) ↔ g.isWanted r.pipeline.mode = true ∧
      ∃ m, opening = some m ∧ g.input m.header ≠ "" ∧ r.controller.store.HasGuide (g.input m.header) := by
  rw [ReadoutRecord.guide?, h.remembered, DenoisePipeline.exists_guide_iff h.formed]
  cases opening <;> simp

theorem Foreseen.shows_guide? (h : Foreseen r.controller opening) {g : Guide} {readout : Readout}
    (hg : r.guide? g = some readout) : ∃ m found, opening = some m ∧
      r.controller.store.slice (.aovName (g.input m.header)) = .ok found ∧ found.count = 3 ∧
        r.view.Shows readout (r.controller.shown found) := by
  obtain ⟨-, m, hm, -⟩ := (h.exists_guide?_iff g).mp ⟨readout, hg⟩
  rw [ReadoutRecord.guide?, h.remembered, hm] at hg
  obtain ⟨found, hslice, hcount, hshows⟩ := DenoisePipeline.shows_of_guide h.formed hg
  exact ⟨m, found, hm, hslice, hcount, hshows⟩

/-- The beauty channel is shown like any other source. -/
theorem Foreseen.shows_raw (h : Foreseen r.controller opening) :
    r.view.Shows r.raw (r.controller.shown ⟨r.controller.store.channel .beauty, 0, 4⟩) := by
  have hslice : r.controller.store.slice (.channel .beauty) = .ok ⟨r.controller.store.channel .beauty, 0, 4⟩ := rfl
  obtain ⟨readout, hread, hshows⟩ := Controller.readout_of_slice h.formed hslice r.orientation
  rw [Controller.readout_beauty] at hread
  cases hread
  exact hshows

/-- What a pipeline asks for matches what it reads out. -/
theorem Foreseen.matches (h : Foreseen r.controller opening) :
    r.request.Matches r.controller opening r.pipeline.mode r.orientation r.raw := by
  have hraw := h.shows_raw
  have hvalues (g : Guide) : (∃ values, g.values? r.request.input = some values) ↔
      ∃ readout, r.guide? g = some readout := by
    rw [ReadoutRecord.values?_request h.formed]
    simp only [Option.map_eq_some_iff, exists_comm, exists_and_left, exists_eq', and_true]
  have hguide {g : Guide} {values : Array Binary32} (hg : g.values? r.request.input = some values) :
      ∃ readout, r.guide? g = some readout ∧ readout.data = values := by
    rw [ReadoutRecord.values?_request h.formed] at hg
    exact Option.map_eq_some_iff.mp hg
  have hsize {readout : Readout} {slice : Slice} (hshows : r.view.Shows readout slice) :
      readout.width = r.raw.width ∧ readout.height = r.raw.height :=
    Prod.mk.inj (hshows.size.trans hraw.size.symm)
  refine ⟨rfl, rfl, ?_, fun g => ?_, fun g => ?_, fun g values hg => ?_, fun position hposition => ?_⟩
  · exact hraw.size_data.trans ((congrArg _ (Controller.count_shown ..)).trans (Nat.mul_comm ..))
  · rw [hvalues, ReadoutRecord.isUsed_request h.formed, Option.isSome_iff_exists]
  · exact (hvalues g).trans (h.exists_guide?_iff g)
  · obtain ⟨readout, hreadout, rfl⟩ := hguide hg
    obtain ⟨_, _, -, -, hcount, hshows⟩ := h.shows_guide? hreadout
    rw [hshows.size_data, (hsize hshows).1, (hsize hshows).2, Controller.count_shown, hcount, Nat.mul_comm]
  · obtain ⟨pixel, hpixel, hbeauty⟩ := hraw.value position hposition
    rw [Controller.count_shown] at hbeauty
    refine ⟨pixel, hpixel, hbeauty, fun g values hg => ?_⟩
    obtain ⟨readout, hreadout, rfl⟩ := hguide hg
    obtain ⟨m, found, hm, hslice, hcount, hshows⟩ := h.shows_guide? hreadout
    -- The view is the same for both, and it has one pixel at a position.
    obtain ⟨pixel', hpixel', hvalue⟩ := hshows.value position (by rwa [(hsize hshows).1, (hsize hshows).2])
    cases hpixel.symm.trans hpixel'
    rw [Controller.count_shown, hcount] at hvalue
    exact ⟨m, found, hm, hslice, hvalue⟩

end Request

/-- A denoiser always receives buffers that match. Take any session and any pipeline, after whatever has happened to
them. Every readout that is to be denoised succeeds, and the denoiser is asked for what matches the raw readout. The
answer has the shape of the raw readout, and as many values, as long as runs give as many as the beauty channel has.
-/
theorem matches_applyAll (decoders : Decoders μ) (resetMode : ResetMode) (parallel : Bool) (window : Duration)
    (memory : μ) (events : List ViewerEvent) (p : DenoisePipeline) (he : p.mode.isEnabled = true) (o : Orientation)
    (a : DenoiseAnswers) :
    let c := applyAll decoders (.new resetMode parallel window memory) events
    ∃ raw q, (c.readout (.channel .beauty) o none).2 = .ok raw ∧
      q.Matches c (lastOpening? events) p.mode o raw ∧
      (p.readout a c o).2.2 =
        .ok ⟨{ raw with data := (p.denoiser.process a q).data }, some (p.denoiser.process a q)⟩ ∧
      ((∀ output, a.run q.input = .ok output → output.size = q.input.beauty.size) →
        (p.denoiser.process a q).data.size = raw.width * raw.height * 4) := by
  intro c
  have h : Foreseen c ((lastOpening? events).or none) := (foreseen_new resetMode parallel window memory).applyAll events
  rw [Option.or_none] at h
  let r : ReadoutRecord μ := ⟨p, c, o, a⟩
  have hmatches : r.request.Matches c (lastOpening? events) p.mode o r.raw := Foreseen.matches (r := r) h
  refine ⟨r.raw, r.request, rfl, hmatches, congrArg (·.2.2) (r.readout_eq he), fun hrun => ?_⟩
  rw [CachedDenoiser.size_data_process hrun, hmatches.size_beauty, Nat.mul_comm]

/-- A frame of two pixels names its guides before they come in, an AOV with the right pixel and an alias of beauty. The
second message shows this pixel alone. -/
def guidedEvents : List ViewerEvent :=
  let header : FrameHeader :=
    { syncId := 1, status := .started, progress := .zero, viewport := ⟨0, 0, 1, 0⟩, albedoInput := "diffuse",
      normalInput := "alias" }
  [.session (.message ⟨header, [⟨"beauty", .beauty, ⟨#[1]⟩⟩], ⟨⟨0⟩, 0⟩⟩),
    .store (.request (.write (.updateAov "diffuse" (.onePixel ⟨2, 1⟩ 1 0 #[⟨1⟩, ⟨2⟩, ⟨3⟩])))),
    .store (.request (.write (.reference "alias" .beauty))),
    .session (.message ⟨{ header with status := .rendering, roi := some ⟨1, 0, 9, 9⟩ }, [], ⟨⟨0⟩, 0⟩⟩)]

/-- Both guides are passed for the right pixel, with three values each, and the answer has four. -/
theorem matches_applyAll_rightPixel :
    let c := applyAll .firstByte (.new .full false ⟨0⟩ 0) guidedEvents
    let p : DenoisePipeline := .new .optix .enableAlbedoNormal DenoiseScheduler.defaultHistory
    p.mode.isEnabled = true ∧ ∃ (raw : Readout) (q : DenoiseRequest), (raw.width, raw.height) = (1, 1) ∧
      (∀ g : Guide, g.isUsed q.config = true ∧ ∃ values, g.values? q.input = some values ∧ values.size = 3) ∧
      (p.readout (.copying 0) c .topDown).2.2 = .ok ⟨{ raw with data := (p.denoiser.process (.copying 0) q).data },
        some (p.denoiser.process (.copying 0) q)⟩ ∧
      (p.denoiser.process (.copying 0) q).data.size = 4 := by
  intro c p
  obtain ⟨raw, q, hread, hq, hgiven, hsize⟩ :=
    matches_applyAll .firstByte .full false ⟨0⟩ 0 guidedEvents p rfl .topDown (.copying 0)
  obtain ⟨hwidth, hheight⟩ : raw.width = 1 ∧ raw.height = 1 := by
    have h : (c.readout (.channel .beauty) .topDown none).2.toOption.map (fun r => (r.width, r.height)) =
        some (1, 1) := by decide +kernel
    rw [hread] at h
    exact Prod.mk.inj (Option.some.inj h)
  have hpassed (g : Guide) : ∃ values, g.values? q.input = some values := by
    refine (hq.passed_iff g).mpr ⟨by cases g <;> rfl, _, rfl, ?_⟩
    cases g <;> decide +kernel
  refine ⟨rfl, raw, q, by rw [hwidth, hheight], fun g => ⟨(hq.isUsed_iff g).mpr (hpassed g), ?_⟩, hgiven, ?_⟩
  · obtain ⟨values, hvalues⟩ := hpassed g
    exact ⟨values, hvalues, by rw [hq.size_guide g values hvalues, hwidth, hheight]⟩
  · rw [hsize fun output houtput => by cases houtput; rfl, hwidth, hheight]

end ViewerEvent

end ProgressiveFrame
