import ProgressiveFrame.Proofs.Denoise.Provenance

/-!
# When a denoiser is built, and which error it keeps

What a denoiser remembers is told by what has been done with it. The denoiser that is in place is the one that the
latest request asked for, unless it could not be built. The error that is kept is the one that the latest request fell
back on since somebody took an error.

* `DenoiserUse`: a denoiser with all that has been done with it, requests and takings of errors.
* `CachedDenoiser.built_process`, `active_process`, `lastError_process`: what one request builds and leaves.
* `DenoiserUse.Recalls`: what the denoiser remembers is what its past says. Every event keeps this (`Recalls.next`).
* `DenoiserUse.upkept_ofEvents`: exactly when a denoiser is built and in place.
* `DenoiserUse.retained_ofEvents`: errors are neither lost nor repeated.
-/

namespace ProgressiveFrame

/-! ## What a request builds and leaves -/

namespace DenoiseRecord

/-- The configuration that a denoiser was to be built for, with the answer. -/
def build? (r : DenoiseRecord) : Option (DenoiserConfig × Except DenoiseError Unit) :=
  r.step.built.map fun config => (config, r.answers.build config)

/-- Whether a denoiser was to be built for the request and could not be. -/
def buildFailed (r : DenoiseRecord) : Bool :=
  match r.build? with
  | some (_, .error _) => true
  | _ => false

/-- The error that the request fell back on, if it did. -/
def fallback? (r : DenoiseRecord) : Option DenoiseError :=
  match r.step.outcome with
  | .fallback e => some e
  | _ => none

/-- The configuration that a denoiser is in place for after the request. -/
def inPlace? (r : DenoiseRecord) : Option DenoiserConfig := if r.buildFailed then none else some r.request.config

/-- The sentence for the error that the request fell back on. -/
def sentence? (r : DenoiseRecord) : Option String :=
  r.fallback?.map fun e => e.message ++ if r.buildFailed then " : fall back to non-denoised output" else ""

variable {r : DenoiseRecord}

theorem sentence?_of_fallback {e : DenoiseError} (h : r.step.outcome = .fallback e) :
    r.sentence? = some (e.message ++ if r.buildFailed then " : fall back to non-denoised output" else "") := by
  rw [sentence?, fallback?, h]
  rfl

theorem sentence?_eq_none (h : ∀ e, r.step.outcome ≠ .fallback e) : r.sentence? = none := by
  rw [sentence?, fallback?]
  cases houtcome : r.step.outcome with
  | fallback e => exact absurd houtcome (h e)
  | _ => rfl

theorem isSome_sentence?_iff : r.sentence?.isSome = true ↔ ∃ e, r.step.outcome = .fallback e := by
  rw [sentence?, Option.isSome_map, fallback?]
  cases r.step.outcome <;> simp

end DenoiseRecord

namespace CachedDenoiser

variable {d d' : CachedDenoiser} {a : DenoiseAnswers} {q : DenoiseRequest} {built : Option DenoiserConfig}

theorem Prepared.built_eq (h : d.Prepared a q d' built) :
    built = if d.active = some q.config then none else some q.config := by
  cases h with
  | kept hsame => rw [if_pos hsame]
  | rebuilt hother _ => rw [if_neg hother]

theorem Prepared.lastError_eq (h : d.Prepared a q d' built) : d'.lastError = d.lastError := by
  cases h <;> rfl

/-- A denoiser that is in place was not refused by the request. -/
theorem Prepared.buildFailed_eq (h : d.Prepared a q d' built) {step : DenoiseStep} (hbuilt : step.built = built) :
    (DenoiseRecord.mk q a step).buildFailed = false := by
  rw [DenoiseRecord.buildFailed, DenoiseRecord.build?, hbuilt]
  cases h with
  | kept _ => rfl
  | rebuilt _ hbuild => simp only [Option.map_some, hbuild]

/-- A denoiser is built exactly if the one in place is not the one that is asked for. -/
theorem built_process (d : CachedDenoiser) (a : DenoiseAnswers) (q : DenoiseRequest) :
    (d.process a q).built = if d.active = some q.config then none else some q.config := by
  have hcall := d.call a q
  generalize d.process a q = step at hcall
  cases hcall with
  | unbuilt hother _ => exact (if_neg hother).symm
  | reused hsame _ _ _ | declined hsame _ _ _ => exact (if_pos hsame).symm
  | skipped hp _ | denoised hp _ _ _ | failed hp _ _ _ => exact hp.built_eq

theorem build?_of (d : CachedDenoiser) (a : DenoiseAnswers) (q : DenoiseRequest) :
    (DenoiseRecord.of d q a).build? =
      if d.active = some q.config then none else some (q.config, a.build q.config) := by
  rw [DenoiseRecord.build?, DenoiseRecord.of, built_process]
  split <;> rfl

/-- After a request the denoiser that it asks for is in place, unless it could not be built. -/
theorem active_process (d : CachedDenoiser) (a : DenoiseAnswers) (q : DenoiseRequest) :
    (d.process a q).next.active = (DenoiseRecord.of d q a).inPlace? := by
  have hcall := d.call a q
  unfold DenoiseRecord.of
  generalize d.process a q = step at hcall
  rw [DenoiseRecord.inPlace?]
  cases hcall with
  | unbuilt _ hbuild =>
    simp only [DenoiseRecord.buildFailed, DenoiseRecord.build?, Option.map_some, hbuild]
    rfl
  | reused hsame _ _ _ | declined hsame _ _ _ => exact hsame
  | skipped hp _ | denoised hp _ _ _ | failed hp _ _ _ =>
    rw [hp.buildFailed_eq rfl]
    exact hp.active

/-- A request that falls back leaves the sentence for its error, any other leaves the error that is kept. -/
theorem lastError_process (d : CachedDenoiser) (a : DenoiseAnswers) (q : DenoiseRequest) :
    (d.process a q).next.lastError = (DenoiseRecord.of d q a).sentence?.or d.lastError := by
  have hcall := d.call a q
  unfold DenoiseRecord.of
  generalize d.process a q = step at hcall
  cases hcall with
  | unbuilt _ hbuild =>
    rw [DenoiseRecord.sentence?_of_fallback rfl]
    simp only [DenoiseRecord.buildFailed, DenoiseRecord.build?, Option.map_some, hbuild]
    rfl
  | reused _ _ _ _ | declined _ _ _ _ => rfl
  | skipped hp _ | denoised hp _ _ _ => exact hp.lastError_eq
  | failed hp _ _ _ =>
    -- Its denoiser was in place, so the sentence has no note.
    rw [DenoiseRecord.sentence?_of_fallback rfl, hp.buildFailed_eq rfl]
    exact congrArg some String.append_empty.symm

/-- A request asks for nothing to be built but what its step reports. -/
theorem process_congr_build {build : DenoiserConfig → Except DenoiseError Unit}
    (h : ∀ config ∈ (d.process a q).built, build config = a.build config) :
    d.process { a with build } q = d.process a q := by
  rw [built_process] at h
  unfold process
  split
  · rfl
  · rename_i hother
    rw [if_neg hother] at h
    simp only [h q.config rfl]
    rfl

/-- A request whose denoiser could not be built runs none and falls back. -/
theorem of_buildFailed (h : (DenoiseRecord.of d q a).buildFailed = true) :
    (d.process a q).ran = none ∧ ∃ e, (d.process a q).outcome = .fallback e := by
  have hcall := d.call a q
  unfold DenoiseRecord.of at h
  generalize d.process a q = step at hcall h
  cases hcall with
  | unbuilt _ _ => exact ⟨rfl, _, rfl⟩
  | reused _ _ _ _ | declined _ _ _ _ => cases h
  | skipped hp _ | denoised hp _ _ _ | failed hp _ _ _ =>
    rw [hp.buildFailed_eq rfl] at h
    cases h

/-- A request falls back on nothing but an answer of the outside world. -/
theorem error_of_fallback {e : DenoiseError} (h : (d.process a q).outcome = .fallback e) :
    ((d.process a q).built = some q.config ∧ a.build q.config = .error e) ∨
      ((d.process a q).ran = some q.input ∧ a.run q.input = .error e) := by
  have hcall := d.call a q
  generalize d.process a q = step at hcall h
  cases hcall with
  | unbuilt _ hbuild =>
    cases h
    exact .inl ⟨rfl, hbuild⟩
  | failed _ _ _ hrun =>
    cases h
    exact .inr ⟨rfl, hrun⟩
  | _ => cases h

end CachedDenoiser

/-! ## Denoisers in use -/

/-- What can be done with a denoiser. -/
inductive DenoiserEvent where
  | request (q : DenoiseRequest) (a : DenoiseAnswers)
  | takeError

/-- What is noted of an event. -/
inductive DenoiserNote where
  | answered (r : DenoiseRecord)
  | tookError

/-- A denoiser with the notes of all that has been done with it, the newest first. -/
structure DenoiserUse where
  denoiser : CachedDenoiser
  notes : List DenoiserNote

namespace DenoiserUse

/-- The use with one event more. -/
def next (u : DenoiserUse) : DenoiserEvent → DenoiserUse
  | .request q a => ⟨(u.denoiser.process a q).next, .answered (.of u.denoiser q a) :: u.notes⟩
  | .takeError => ⟨u.denoiser.takeError.1, .tookError :: u.notes⟩

/-- The use of a new denoiser. -/
def ofEvents (history : Nat) (events : List DenoiserEvent) : DenoiserUse := events.foldl next ⟨.new history, []⟩

/-- All requests, the newest first. -/
def requests : List DenoiserNote → List DenoiseRecord
  | [] => []
  | .answered r :: notes => r :: requests notes
  | .tookError :: notes => requests notes

/-- The requests since an error was taken, the newest first. -/
def sinceTaken : List DenoiserNote → List DenoiseRecord
  | .answered r :: notes => r :: sinceTaken notes
  | _ => []

/-- The configuration that the denoiser of the latest building is for, with the answer to it. -/
def lastBuild? (records : List DenoiseRecord) : Option (DenoiserConfig × Except DenoiseError Unit) :=
  records.findSome? DenoiseRecord.build?

/-- What a denoiser remembers is what its past says. -/
structure Recalls (d : CachedDenoiser) (notes : List DenoiserNote) : Prop where
  answered : ∀ r ∈ requests notes, ∃ d q a, r = .of d q a
  active : d.active = (requests notes).head?.bind DenoiseRecord.inPlace?
  lastBuild : ∀ config, d.active = some config → lastBuild? (requests notes) = some (config, .ok ())
  lastError : d.lastError = (sinceTaken notes).findSome? DenoiseRecord.sentence?

variable {d : CachedDenoiser} {notes : List DenoiserNote}

/-- The denoiser that a request asks for is in place after it exactly if the latest building was of this denoiser and
succeeded. -/
theorem Recalls.active_iff (h : Recalls d notes) (a : DenoiseAnswers) (q : DenoiseRequest) :
    (d.process a q).next.active = some q.config ↔
      lastBuild? (.of d q a :: requests notes) = some (q.config, .ok ()) := by
  rw [d.active_process, DenoiseRecord.inPlace?, DenoiseRecord.buildFailed, lastBuild?, List.findSome?_cons, d.build?_of]
  by_cases hsame : d.active = some q.config
  -- Nothing is built, so the latest building is one of the past, and the past tells of the denoiser in place.
  · rw [if_pos hsame]
    exact iff_of_true rfl (h.lastBuild q.config hsame)
  · rw [if_neg hsame]
    cases hbuild : a.build q.config with
    | ok => exact iff_of_true rfl rfl
    | error e => exact iff_of_false nofun nofun

theorem Recalls.request (h : Recalls d notes) (q : DenoiseRequest) (a : DenoiseAnswers) :
    Recalls (d.process a q).next (.answered (.of d q a) :: notes) where
  answered := List.forall_mem_cons.mpr ⟨⟨d, q, a, rfl⟩, h.answered⟩
  active := d.active_process a q
  lastBuild config hactive := by
    have hconfig : config = q.config := by
      rw [d.active_process, DenoiseRecord.inPlace?] at hactive
      split at hactive
      · cases hactive
      · exact (Option.some.inj hactive).symm
    subst hconfig
    exact (h.active_iff a q).mp hactive
  lastError := by
    rw [d.lastError_process, h.lastError, sinceTaken, List.findSome?_cons]
    cases (DenoiseRecord.of d q a).sentence? <;> rfl

theorem Recalls.takeError (h : Recalls d notes) : Recalls d.takeError.1 (.tookError :: notes) where
  answered := h.answered
  active := h.active
  lastBuild := h.lastBuild
  lastError := rfl

/-- Every event keeps what the denoiser remembers in step with its past. -/
theorem Recalls.next {u : DenoiserUse} (h : Recalls u.denoiser u.notes) (event : DenoiserEvent) :
    Recalls (u.next event).denoiser (u.next event).notes := by
  cases event with
  | request q a => exact h.request q a
  | takeError => exact h.takeError

theorem recalls_new (history : Nat) : Recalls (.new history) [] where
  answered := List.forall_mem_nil _
  active := rfl
  lastBuild _ hactive := nomatch hactive
  lastError := rfl

theorem recalls_foldl {u : DenoiserUse} (h : Recalls u.denoiser u.notes) (events : List DenoiserEvent) :
    Recalls (events.foldl DenoiserUse.next u).denoiser (events.foldl DenoiserUse.next u).notes := by
  induction events generalizing u with
  | nil => exact h
  | cons event events ih => exact ih (h.next event)

/-- After all events the denoiser remembers what its past says. -/
theorem recalls_ofEvents (history : Nat) (events : List DenoiserEvent) :
    Recalls (ofEvents history events).denoiser (ofEvents history events).notes :=
  recalls_foldl (recalls_new history) events

/-! ## When a denoiser is built -/

/-- What a request builds and leaves in place, by the requests before it, the newest first. -/
structure Upkept (earlier : List DenoiseRecord) (d : CachedDenoiser) (a : DenoiseAnswers) (q : DenoiseRequest)
    (step : DenoiseStep) : Prop where
  /-- At most one denoiser is built, for the configuration of the request. -/
  built : step.built = none ∨ step.built = some q.config
  /-- Of what building would give, the step depends on nothing but what it gave there. -/
  process_eq : ∀ build, (∀ config ∈ step.built, build config = a.build config) → d.process { a with build } q = step
  built_iff : step.built = some q.config ↔
    earlier = [] ∨ ∃ last, earlier.head? = some last ∧ (last.request.config ≠ q.config ∨ last.buildFailed = true)
  /-- Neither a run, failed or not, nor a request without a run makes the next one build. -/
  kept : ∀ last, earlier.head? = some last → last.request.config = q.config →
    (last.step.ran.isSome = true ∨ ∀ e, last.step.outcome ≠ .fallback e) → step.built = none
  isReady_iff : step.next.isReady = true ↔ step.next.active = some q.config
  active_iff : step.next.active = some q.config ↔
    lastBuild? (⟨q, a, step⟩ :: earlier) = some (q.config, .ok ())
  /-- A request falls back on an error of building or of running, and never for want of a denoiser. -/
  fallback : ∀ e, step.outcome = .fallback e →
    (step.built = some q.config ∧ a.build q.config = .error e) ∨ (step.ran = some q.input ∧ a.run q.input = .error e)

theorem Recalls.built_iff (h : Recalls d notes) (a : DenoiseAnswers) (q : DenoiseRequest) :
    (d.process a q).built = some q.config ↔
      requests notes = [] ∨ ∃ last, (requests notes).head? = some last ∧
        (last.request.config ≠ q.config ∨ last.buildFailed = true) := by
  rw [d.built_process, h.active]
  cases requests notes with
  | nil => simp
  | cons last earlier =>
    cases hfailed : last.buildFailed <;> simp [DenoiseRecord.inPlace?, hfailed]

theorem Recalls.upkept (h : Recalls d notes) (a : DenoiseAnswers) (q : DenoiseRequest) :
    Upkept (requests notes) d a q (d.process a q) where
  built := by
    rw [d.built_process]
    split
    · exact .inl rfl
    · exact .inr rfl
  process_eq _ := CachedDenoiser.process_congr_build
  built_iff := h.built_iff a q
  kept last hlast hconfig hnot := by
    have hok : last.buildFailed = false := by
      obtain ⟨d', q', a', rfl⟩ := h.answered last (List.mem_of_mem_head? hlast)
      rw [← Bool.not_eq_true]
      intro hfailed
      obtain ⟨hran, e, he⟩ := CachedDenoiser.of_buildFailed hfailed
      obtain hsome | hother := hnot
      · rw [DenoiseRecord.of, hran] at hsome
        cases hsome
      · exact hother e he
    rw [d.built_process, h.active, hlast, Option.bind_some, DenoiseRecord.inPlace?, hok, hconfig,
      if_neg Bool.false_ne_true, if_pos rfl]
  isReady_iff := by
    rw [CachedDenoiser.isReady, d.active_process, DenoiseRecord.inPlace?]
    split
    · exact iff_of_false nofun nofun
    · exact iff_of_true rfl rfl
  active_iff := h.active_iff a q
  fallback _ := CachedDenoiser.error_of_fallback

/-- Building is cached exactly, whatever the requests ask for and whatever building gives. A request builds a denoiser
exactly if it is the first one, or asks for another configuration than the one before it, or that one could not build,
and then it builds for its own configuration. After it a denoiser is in place exactly if the latest building was for
its configuration and succeeded. Errors that are taken in between change nothing. -/
theorem upkept_ofEvents (history : Nat) (events : List DenoiserEvent) (q : DenoiseRequest) (a : DenoiseAnswers) :
    let u := ofEvents history events
    Upkept (requests u.notes) u.denoiser a q (u.denoiser.process a q) :=
  (recalls_ofEvents history events).upkept a q

/-! ## Which error is kept -/

/-- What is kept of the errors of requests, the newest first. -/
structure Retained (recent : List DenoiseRecord) (kept : Option String) : Prop where
  isSome_iff : kept.isSome = true ↔ ∃ r ∈ recent, ∃ e, r.step.outcome = .fallback e
  /-- It is the sentence of the latest request that fell back. -/
  latest : ∀ later r earlier e, recent = later ++ r :: earlier → (∀ s ∈ later, ∀ e, s.step.outcome ≠ .fallback e) →
    r.step.outcome = .fallback e →
      kept = some (e.message ++ if r.buildFailed then " : fall back to non-denoised output" else "")

theorem retained_findSome? (recent : List DenoiseRecord) :
    Retained recent (recent.findSome? DenoiseRecord.sentence?) where
  isSome_iff := by
    rw [List.findSome?_isSome_iff]
    simp only [DenoiseRecord.isSome_sentence?_iff]
  latest := by
    rintro later r earlier e rfl hlater hr
    rw [List.findSome?_append, List.findSome?_eq_none_iff.mpr, List.findSome?_cons,
      DenoiseRecord.sentence?_of_fallback hr]
    · rfl
    · exact fun s hs => DenoiseRecord.sentence?_eq_none (hlater s hs)

/-- Errors are neither lost nor repeated, whatever happens in which order. An error can be taken exactly if a request
has fallen back since one was taken, and it is that of the latest such request, with a note if its denoiser could not
be built. A request that does not fall back leaves it as it is, also if it builds a denoiser. -/
theorem retained_ofEvents (history : Nat) (events : List DenoiserEvent) :
    let u := ofEvents history events
    Retained (sinceTaken u.notes) u.denoiser.takeError.2 ∧
      ∀ q a, (∀ e, (u.denoiser.process a q).outcome ≠ .fallback e) →
        (u.denoiser.process a q).next.takeError.2 = u.denoiser.takeError.2 := by
  intro u
  constructor
  · have hkept : u.denoiser.takeError.2 = _ := (recalls_ofEvents history events).lastError
    rw [hkept]
    exact retained_findSome? (sinceTaken u.notes)
  · intro q a h
    rw [CachedDenoiser.takeError, CachedDenoiser.lastError_process, DenoiseRecord.sentence?_eq_none h]
    rfl

/-- A denoiser that cannot be built leaves its error, also after another one has been built. -/
example :
    let q : DenoiseRequest := ⟨⟨.optix, 1, 1, false, false⟩, ⟨#[.one, .one, .one, .one], none, none⟩, .zero, false⟩
    let absent : DenoiseAnswers := { DenoiseAnswers.copying 0 with build := fun _ => .error (.unavailable "no device") }
    (ofEvents 1 [.request q absent, .request q (.copying 80)]).denoiser.takeError.2 =
      some "denoiser unavailable: no device : fall back to non-denoised output" := by
  decide +kernel

end DenoiserUse

end ProgressiveFrame
