import ProgressiveFrame.Denoise.Pipeline
import ProgressiveFrame.Proofs.Denoise.Provenance
import ProgressiveFrame.Proofs.Session.Readouts

/-!
# Denoised readouts of a session

Messages come in and readouts are asked for in any order. A readout may be given the picture of an earlier one,
and the denoiser knows nothing of a readout but its configuration, its values and whether a frame starts.

* `PipelineRun`: a session with its pipeline and a record of each readout that the denoiser was asked for.
* `PipelineRun.Sound.reused_source`: a picture that is given again was made of an earlier readout, with the same
  configuration, and has as many values as the readout that it stands in for.
* `reused_sameView`, `reused_sameFrame`: that earlier readout had the same view, or showed the same frame, as long
  as the denoiser is told when it changes (`ReadoutRecord.Announces`).
* `reused_otherView`, `reused_otherFrame`: otherwise it need not be so. Turning the rows around keeps the size, and
  the start of a frame is not seen when the next message comes before the next readout.
-/

namespace ProgressiveFrame

namespace DenoisePipeline

variable {μ : Type}

/-- The guides for a readout, with the session they leave behind. -/
def guides (p : DenoisePipeline) (c : Controller μ) (o : Orientation) :
    Controller μ × Option Readout × Option Readout :=
  let (c, albedo) := guide c p.mode.wantsAlbedo c.session.albedoInput o
  let (c, normal) := guide c p.mode.wantsNormal c.session.normalInput o
  (c, albedo, normal)

@[simp] theorem session_guide (c : Controller μ) (wanted : Bool) (name : String) (o : Orientation) :
    (guide c wanted name o).1.session = c.session := by
  unfold guide
  split
  · split <;> rename_i heq <;> exact congrArg (·.1.session) heq.symm
  · rfl

theorem formed_guide {c : Controller μ} (hf : c.store.Formed) (wanted : Bool) (name : String) (o : Orientation) :
    (guide c wanted name o).1.store.Formed := by
  have hread := Controller.formed_readout hf (.aovName name) o none
  unfold guide
  split
  · split
    · rename_i heq
      rwa [heq] at hread
    · rename_i heq
      rwa [heq] at hread
  · exact hf

end DenoisePipeline

/-! ## Records -/

/-- A readout that the denoiser was asked for, with all that it depends on. -/
structure ReadoutRecord (μ : Type) where
  pipeline : DenoisePipeline
  controller : Controller μ
  orientation : Orientation
  answers : DenoiseAnswers

namespace ReadoutRecord

variable {μ : Type}

/-- How the readout is seen. -/
def view (r : ReadoutRecord μ) : View := r.controller.view r.orientation

/-- The frame that is read out. -/
def frame? (r : ReadoutRecord μ) : Option Nat := r.controller.session.syncId

/-- The beauty channel, not denoised. -/
def raw (r : ReadoutRecord μ) : Readout := r.controller.beauty r.orientation

/-- The guides, with the session they leave behind. -/
def guides (r : ReadoutRecord μ) : Controller μ × Option Readout × Option Readout :=
  r.pipeline.guides (r.controller.readout (.channel .beauty) r.orientation none).1 r.orientation

/-- What the denoiser is asked for. -/
def request (r : ReadoutRecord μ) : DenoiseRequest :=
  r.pipeline.request r.guides.1 r.raw r.guides.2.1 r.guides.2.2

/-- What the denoiser records. -/
def denoise (r : ReadoutRecord μ) : DenoiseRecord := .of r.pipeline.denoiser r.request r.answers

@[simp] theorem session_guides (r : ReadoutRecord μ) : r.guides.1.session = r.controller.session := by
  simp [guides, DenoisePipeline.guides]

theorem formed_guides {r : ReadoutRecord μ} (hf : r.controller.store.Formed) : r.guides.1.store.Formed :=
  DenoisePipeline.formed_guide (DenoisePipeline.formed_guide (Controller.formed_readout hf ..) ..) ..

/-- The denoiser is told of the start of a frame exactly when the latest message that was taken in started one. -/
theorem frameStarted_request (r : ReadoutRecord μ) :
    r.request.frameStarted = (r.controller.session.status == some .started) := by
  simp [request, DenoisePipeline.request]

/-- What the readout gives, and what it leaves behind. -/
theorem readout_eq (r : ReadoutRecord μ) (he : r.pipeline.mode.isEnabled = true) :
    r.pipeline.readout r.answers r.controller r.orientation =
      ({ r.pipeline with denoiser := r.denoise.step.next }, r.guides.1,
        .ok ⟨{ r.raw with data := r.denoise.step.data }, some r.denoise.step⟩) := by
  unfold DenoisePipeline.readout
  rw [Controller.readout_beauty]
  simp only [he, Bool.not_true, Bool.false_eq_true, if_false]
  rfl

/-- A readout that is not to be denoised gives the beauty channel. -/
theorem readout_eq_raw (r : ReadoutRecord μ) (he : r.pipeline.mode.isEnabled = false) :
    r.pipeline.readout r.answers r.controller r.orientation =
      (r.pipeline, (r.controller.readout (.channel .beauty) r.orientation none).1, .ok ⟨r.raw, none⟩) := by
  unfold DenoisePipeline.readout
  rw [Controller.readout_beauty]
  simp only [he, Bool.not_false, if_true]
  rfl

/-- The picture that the readout gives, with what became of the request, if the denoiser was asked. -/
def given? (r : ReadoutRecord μ) : Option (Array Binary32 × DenoiseOutcome) :=
  match (r.pipeline.readout r.answers r.controller r.orientation).2.2 with
  | .ok ⟨readout, some step⟩ => some (readout.data, step.outcome)
  | _ => none

theorem given?_eq (r : ReadoutRecord μ) : r.given? =
    if r.pipeline.mode.isEnabled then some (r.denoise.step.data, r.denoise.step.outcome) else none := by
  unfold given?
  cases he : r.pipeline.mode.isEnabled with
  | false =>
    rw [r.readout_eq_raw he]
    rfl
  | true =>
    rw [r.readout_eq he]
    rfl

/-- Between two readouts one after the other, the denoiser is told when `f` changes: it is asked for another
configuration, or a frame starts. -/
def Announces {β : Type} (f : ReadoutRecord μ → β) (newer older : ReadoutRecord μ) : Prop :=
  f newer = f older ∨ newer.request.config ≠ older.request.config ∨
    newer.controller.session.status = some .started

instance {β : Type} [DecidableEq β] (f : ReadoutRecord μ → β) (newer older : ReadoutRecord μ) :
    Decidable (Announces f newer older) :=
  inferInstanceAs (Decidable (_ ∨ _ ∨ _))

/-- What is announced when it changes has not changed since the source of a picture. -/
theorem eq_of_announced {β : Type} {f : ReadoutRecord μ → β} {config : DenoiserConfig} {picture : Array Binary32}
    {now source : ReadoutRecord μ} {later earlier : List (ReadoutRecord μ)}
    (hchain : (now :: (later ++ source :: earlier)).IsChain (Announces f))
    (hsource : source.denoise.IsSource config picture (later.map (·.denoise)))
    (hconfig : now.request.config = config) (hstart : now.request.frameStarted = false) : f now = f source := by
  have hquiet {newer older : ReadoutRecord μ} (ha : Announces f newer older) (hn : newer.request.config = config)
      (ho : older.request.config = config) (hs : newer.request.frameStarted = false) : f newer = f older := by
    rcases ha with h | h | h
    · exact h
    · exact absurd (hn.trans ho.symm) h
    · rw [frameStarted_request, h] at hs
      cases hs
  induction later generalizing now with
  | nil => exact hquiet (List.isChain_cons_cons.mp hchain).1 hconfig hsource.config_eq hstart
  | cons r later ih =>
    obtain ⟨hfirst, hrest⟩ := List.isChain_cons_cons.mp hchain
    have hkeeps := hsource.since r.denoise List.mem_cons_self
    have hsource' : source.denoise.IsSource config picture (later.map (·.denoise)) :=
      { hsource with since := fun x hx => hsource.since x (List.mem_cons_of_mem _ hx) }
    exact (hquiet hfirst hconfig hkeeps.config_eq hstart).trans
      (ih hrest hsource' hkeeps.config_eq hkeeps.not_started)

end ReadoutRecord

/-- A message of the full pass. -/
def Message.fullPass (syncId : Nat) (status : FrameStatus) (viewport : Viewport) (buffers : List NamedBuffer) :
    Message :=
  ⟨{ syncId, status, progress := .zero, coarsePass := .fine, viewport }, buffers, ⟨⟨0⟩, 0⟩⟩

/-! ## Runs -/

/-- What can happen to a session with a pipeline. -/
inductive PipelineEvent where
  | message (m : Message)
  | setMode (mode : DenoiseMode)
  | setEngine (engine : DenoiseEngine)
  | readout (o : Orientation) (answers : DenoiseAnswers)

/-- A session with its pipeline and the readouts that its denoiser was asked for, the newest first. -/
structure PipelineRun (μ : Type) where
  controller : Controller μ
  pipeline : DenoisePipeline
  history : List (ReadoutRecord μ)

namespace PipelineRun

variable {μ : Type} {decoders : Decoders μ} {r : PipelineRun μ}

/-- A readout of the run as it stands. -/
def asked (r : PipelineRun μ) (o : Orientation) (a : DenoiseAnswers) : ReadoutRecord μ :=
  ⟨r.pipeline, r.controller, o, a⟩

/-- The run with one event more. -/
def next (decoders : Decoders μ) (r : PipelineRun μ) : PipelineEvent → PipelineRun μ
  | .message m => { r with controller := (r.controller.take decoders m).next }
  | .setMode mode => { r with pipeline := { r.pipeline with mode } }
  | .setEngine engine => { r with pipeline := { r.pipeline with engine } }
  | .readout o a =>
    let (pipeline, controller, _) := r.pipeline.readout a r.controller o
    ⟨controller, pipeline, if r.pipeline.mode.isEnabled then r.asked o a :: r.history else r.history⟩

/-- The run of events to a session, with a new pipeline. -/
def ofEvents (decoders : Decoders μ) (c : Controller μ) (engine : DenoiseEngine) (mode : DenoiseMode)
    (history : Nat) (events : List PipelineEvent) : PipelineRun μ :=
  events.foldl (next decoders) ⟨c, .new engine mode history, []⟩

/-- What each event keeps holds after every run. -/
theorem induct {c : Controller μ} {engine : DenoiseEngine} {mode : DenoiseMode} {history : Nat}
    {motive : PipelineRun μ → Prop} (start : motive ⟨c, .new engine mode history, []⟩)
    (next : ∀ r event, motive r → motive (r.next decoders event)) (events : List PipelineEvent) :
    motive (ofEvents decoders c engine mode history events) := by
  unfold ofEvents
  generalize PipelineRun.mk c (DenoisePipeline.new engine mode history) [] = r at start
  induction events generalizing r with
  | nil => exact start
  | cons event events ih => exact ih _ (next r event start)

theorem next_readout_of_enabled (he : r.pipeline.mode.isEnabled = true) (o : Orientation) (a : DenoiseAnswers) :
    r.next decoders (.readout o a) =
      ⟨(r.asked o a).guides.1, { r.pipeline with denoiser := (r.asked o a).denoise.step.next },
        r.asked o a :: r.history⟩ := by
  have hread := (r.asked o a).readout_eq he
  simp only [asked] at hread ⊢
  simp only [next, hread, he, if_true, asked]

theorem next_readout_of_disabled (he : r.pipeline.mode.isEnabled = false) (o : Orientation) (a : DenoiseAnswers) :
    r.next decoders (.readout o a) =
      ⟨(r.controller.readout (.channel .beauty) o none).1, r.pipeline, r.history⟩ := by
  have hread := (r.asked o a).readout_eq_raw he
  simp only [asked] at hread
  simp only [next, hread, he, Bool.false_eq_true, if_false]

/-- The latest picture of the denoiser has a source, and every store has its shape. -/
structure Sound (r : PipelineRun μ) : Prop where
  sourced : DenoiseRun.Sourced r.pipeline.denoiser (r.history.map (·.denoise))
  formed : r.controller.store.Formed
  formed_history : ∀ x ∈ r.history, x.controller.store.Formed

theorem Sound.next (hs : r.Sound) (event : PipelineEvent) : (r.next decoders event).Sound := by
  cases event with
  | message m => exact { hs with formed := Controller.formed_take hs.formed m }
  | setMode _ => exact { hs with }
  | setEngine _ => exact { hs with }
  | readout o a =>
    cases he : r.pipeline.mode.isEnabled with
    | false =>
      rw [next_readout_of_disabled he]
      exact { hs with formed := Controller.formed_readout hs.formed (.channel .beauty) o none }
    | true =>
      rw [next_readout_of_enabled he]
      exact {
        sourced := hs.sourced.next a (r.asked o a).request
        formed := ReadoutRecord.formed_guides (r := r.asked o a) hs.formed
        formed_history := List.forall_mem_cons.mpr ⟨hs.formed, hs.formed_history⟩ }

/-- Every run of a new session is sound. -/
theorem sound_ofEvents (decoders : Decoders μ) (resetMode : ResetMode) (parallel : Bool) (window : Duration)
    (memory : μ) (engine : DenoiseEngine) (mode : DenoiseMode) (history : Nat) (events : List PipelineEvent) :
    (ofEvents decoders (.new resetMode parallel window memory) engine mode history events).Sound :=
  induct
    { sourced := DenoiseRun.sourced_new history
      formed := FrameStore.formed_empty .origin
      formed_history := List.forall_mem_nil _ }
    (fun _ event hs => hs.next event) events

/-! ## Pictures that are given again -/

/-- A picture that is given again was made of an earlier readout, with the same configuration and with as many values
as the beauty channel has now. -/
theorem Sound.reused_source (hs : r.Sound) {o : Orientation} {a : DenoiseAnswers} {picture : Array Binary32}
    (hgiven : (r.asked o a).given? = some (picture, .reused)) :
    (r.asked o a).request.frameStarted = false ∧ picture.size = (r.asked o a).raw.data.size ∧
      ∃ later source earlier, r.history = later ++ source :: earlier ∧
        source.denoise.IsSource (r.asked o a).request.config picture (later.map (·.denoise)) := by
  rw [ReadoutRecord.given?_eq, Option.ite_none_right_eq_some] at hgiven
  obtain ⟨-, hstep⟩ := hgiven
  have houtcome : (r.asked o a).denoise.step.outcome = .reused := congrArg Prod.snd (Option.some.inj hstep)
  have hdata : (r.asked o a).denoise.step.data = picture := congrArg Prod.fst (Option.some.inj hstep)
  subst hdata
  obtain ⟨-, -, hsource, hsize⟩ := (hs.sourced.accounted a (r.asked o a).request).reused houtcome
  obtain ⟨_, _, _, hhistory, hsource⟩ := hsource
  obtain ⟨later, rest, hsplit, rfl, hrest⟩ := List.map_eq_append_iff.mp hhistory
  obtain ⟨source, earlier, rfl, rfl, -⟩ := List.map_eq_cons_iff.mp hrest
  exact ⟨CachedDenoiser.not_started_of_reused houtcome, hsize, later, source, earlier, hsplit, hsource⟩

/-- A new session whose decoders look at the first byte of a payload. -/
def ofSmallEvents (events : List PipelineEvent) : PipelineRun Nat :=
  ofEvents .firstByte (.new .full false ⟨0⟩ 0) .optix .enable DenoiseScheduler.defaultHistory events

section Reused

variable (decoders : Decoders μ) (resetMode : ResetMode) (parallel : Bool) (window : Duration) (memory : μ)
  (engine : DenoiseEngine) (mode : DenoiseMode) (history : Nat) (events : List PipelineEvent) (o : Orientation)
  (a : DenoiseAnswers) (picture : Array Binary32)

/-- A picture that is given again shows what was asked for, as long as the denoiser is told when the view changes:
it was made of an earlier readout with the same view, so each of its values belongs to the pixel and the channel
that the same value of the beauty channel belongs to. -/
theorem reused_sameView :
    let run := ofEvents decoders (.new resetMode parallel window memory) engine mode history events
    let now := run.asked o a
    now.given? = some (picture, .reused) → (now :: run.history).IsChain (ReadoutRecord.Announces (·.view)) →
      ∃ source ∈ run.history, source.denoise.output? = some picture ∧
        source.request.input.beauty = source.raw.data ∧ source.view = now.view ∧
        picture.size = now.raw.data.size ∧ ∀ k,
          now.raw.data[k]? = (now.view.place? WellKnown.beauty.numChan k).bind now.controller.beautyAt? ∧
          source.raw.data[k]? = (now.view.place? WellKnown.beauty.numChan k).bind source.controller.beautyAt? := by
  intro run now hgiven hchain
  have hs : run.Sound := sound_ofEvents decoders resetMode parallel window memory engine mode history events
  obtain ⟨hstart, hsize, later, source, earlier, hhistory, hsource⟩ := hs.reused_source hgiven
  have hmem : source ∈ run.history := hhistory ▸ List.mem_append_cons_self
  rw [hhistory] at hchain
  have hview : now.view = source.view := ReadoutRecord.eq_of_announced hchain hsource rfl hstart
  refine ⟨source, hmem, hsource.output?_eq, rfl, hview.symm, hsize, fun k => ⟨?_, ?_⟩⟩
  · exact run.controller.getElem?_beauty hs.formed o k
  · rw [hview]
    exact source.controller.getElem?_beauty (hs.formed_history source hmem) source.orientation k

/-- The lower one of two pixels arrives, and both are read out from the bottom up. -/
def lowerPixelEvents : List PipelineEvent :=
  [.message (.fullPass 1 .rendering ⟨0, 0, 0, 1⟩ [⟨"beauty", .beauty, ⟨#[0]⟩⟩]), .readout .bottomUp (.copying 0)]

/-- Read out once more from the bottom up, the picture is given again and fits. -/
theorem reused_sameView_lowerPixel :
    let run := ofSmallEvents lowerPixelEvents
    let now := run.asked .bottomUp (.copying 80)
    let picture := #[.one, .one, .one, .one, .zero, .zero, .zero, .zero]
    now.given? = some (picture, .reused) ∧
      (now :: run.history).IsChain (ReadoutRecord.Announces (·.view)) ∧
      ∃ source ∈ run.history, source.denoise.output? = some picture ∧ source.view = now.view := by
  intro run now picture
  have hgiven : now.given? = some (picture, .reused) := by decide +kernel
  have hchain : (now :: run.history).IsChain (ReadoutRecord.Announces (·.view)) := by decide +kernel
  obtain ⟨source, hmem, houtput, -, hview, -⟩ := reused_sameView .firstByte .full false ⟨0⟩ 0 .optix .enable
    DenoiseScheduler.defaultHistory lowerPixelEvents .bottomUp (.copying 80) picture hgiven hchain
  exact ⟨hgiven, hchain, source, hmem, houtput, hview⟩

/-- Read out from the top down, the same picture is given again, upside down. No earlier readout had this view. -/
theorem reused_otherView :
    let run := ofSmallEvents lowerPixelEvents
    let now := run.asked .topDown (.copying 80)
    now.given? = some (#[.one, .one, .one, .one, .zero, .zero, .zero, .zero], .reused) ∧
      now.raw.data = #[.zero, .zero, .zero, .zero, .one, .one, .one, .one] ∧
      ∀ source ∈ run.history, source.view ≠ now.view := by
  decide +kernel

/-- A picture that is given again shows the frame that is current, as long as the denoiser is told when another
frame is read out. -/
theorem reused_sameFrame :
    let run := ofEvents decoders (.new resetMode parallel window memory) engine mode history events
    let now := run.asked o a
    now.given? = some (picture, .reused) → (now :: run.history).IsChain (ReadoutRecord.Announces (·.frame?)) →
      ∃ source ∈ run.history, source.denoise.output? = some picture ∧
        source.request.input.beauty = source.raw.data ∧ source.frame? = run.controller.session.syncId := by
  intro run now hgiven hchain
  have hs : run.Sound := sound_ofEvents decoders resetMode parallel window memory engine mode history events
  obtain ⟨hstart, -, later, source, earlier, hhistory, hsource⟩ := hs.reused_source hgiven
  have hmem : source ∈ run.history := hhistory ▸ List.mem_append_cons_self
  rw [hhistory] at hchain
  have hframe : now.frame? = source.frame? := ReadoutRecord.eq_of_announced hchain hsource rfl hstart
  exact ⟨source, hmem, hsource.output?_eq, rfl, hframe.symm⟩

/-- The only pixel of a frame arrives and is read out, then a second frame starts and has no data yet. Between its
first message and its second one there may be readouts. -/
def twoFrameEvents (between : List PipelineEvent) : List PipelineEvent :=
  [.message (.fullPass 1 .rendering .origin [⟨"beauty", .beauty, ⟨#[0]⟩⟩]), .readout .bottomUp (.copying 0),
    .message (.fullPass 2 .started .origin [])] ++ between ++ [.message (.fullPass 2 .rendering .origin [])]

/-- With a readout at its start, the second frame is denoised anew, and its picture is given again. -/
theorem reused_sameFrame_startSeen :
    let events := twoFrameEvents [.readout .bottomUp (.copying 80)] ++ [.readout .bottomUp (.copying 90)]
    let run := ofSmallEvents events
    let now := run.asked .bottomUp (.copying 170)
    let picture := #[.zero, .zero, .zero, .zero]
    now.given? = some (picture, .reused) ∧
      (now :: run.history).IsChain (ReadoutRecord.Announces (·.frame?)) ∧
      ∃ source ∈ run.history, source.denoise.output? = some picture ∧ source.frame? = some 2 := by
  intro events run now picture
  have hgiven : now.given? = some (picture, .reused) := by decide +kernel
  have hchain : (now :: run.history).IsChain (ReadoutRecord.Announces (·.frame?)) := by decide +kernel
  obtain ⟨source, hmem, houtput, -, hframe⟩ := reused_sameFrame .firstByte .full false ⟨0⟩ 0 .optix .enable
    DenoiseScheduler.defaultHistory events .bottomUp (.copying 170) picture hgiven hchain
  exact ⟨hgiven, hchain, source, hmem, houtput, hframe.trans (by decide +kernel)⟩

/-- Without one, the second frame is shown with the picture of the first. -/
theorem reused_otherFrame :
    let run := ofSmallEvents (twoFrameEvents [])
    let now := run.asked .bottomUp (.copying 80)
    now.given? = some (#[.one, .one, .one, .one], .reused) ∧ now.raw.data = #[.zero, .zero, .zero, .zero] ∧
      ∀ source ∈ run.history, source.frame? ≠ now.frame? := by
  decide +kernel

end Reused

end PipelineRun

end ProgressiveFrame
