import ProgressiveFrame.Proofs.Channel.History
import ProgressiveFrame.Proofs.Store.Writes

/-!
# The history of a store

A store is assembled by writes and resets. A run records each request with its answer, and a place has
met what the answers say: the updates that succeeded there, and every reset.

* `StoreRun.historyOf`: the history of a place, read off the recorded requests.
* `StoreRun.Lawful`: every channel tracks the history of its place. It holds of the empty store and is
  kept by each request (`Lawful.next`), so by every run (`lawful_ofRequests`).
* `ofRequests_shows`: frame assembly is last-writer-wins. After every run, each pixel of each well-known
  channel and of each AOV that owns one is what the history prescribes, and a request that is refused
  leaves nothing behind but, at most, an empty AOV under its new name.
-/

namespace ProgressiveFrame

/-- A request to a store. -/
inductive StoreRequest where
  | write (w : Write)
  | reset (mode : ResetMode)

/-- The store after a request, with the answer. -/
def FrameStore.serve (s : FrameStore) : StoreRequest → FrameStore × Except FrameError Unit
  | .write w => s.write w
  | .reset mode => (s.reset mode, .ok ())

/-- A store with the requests that have been made to it and their answers, the newest first. -/
structure StoreRun where
  store : FrameStore
  history : List (StoreRequest × Except FrameError Unit)

/-- What a request means for the channel in a place. A refused update means nothing. -/
def Place.event? (p : Place) : StoreRequest × Except FrameError Unit → Option ChannelEvent
  | (.write w, .ok ()) => if w.place = p then w.update?.map .update else none
  | (.write _, .error _) => none
  | (.reset mode, _) => some (.reset (p.keepsValues mode))

/-- An update of one pixel. -/
def TileUpdate.onePixel (layout : TileLayout) (x y : Nat) (values : Array Binary32) : TileUpdate :=
  ⟨(PixelMask.empty layout).set x y, values.size, values, none, {}⟩

namespace StoreRun

/-- The run before the first request. -/
def start (v : Viewport) : StoreRun := ⟨.empty v, []⟩

/-- The run with one request more. -/
def next (r : StoreRun) (q : StoreRequest) : StoreRun :=
  ⟨(r.store.serve q).1, (q, (r.store.serve q).2) :: r.history⟩

/-- The run of requests to an empty store. -/
def ofRequests (v : Viewport) (requests : List StoreRequest) : StoreRun := requests.foldl next (start v)

/-- What the channel in a place has met. -/
def historyOf (r : StoreRun) (p : Place) : ChannelHistory := r.history.filterMap p.event?

/-- Every channel is what the history of its place prescribes, and a place without content has met no
update. -/
structure Lawful (r : StoreRun) : Prop where
  tracks : ∀ p c, r.store.content p = some (.owned c) → c.Tracks r.store.layout (r.historyOf p)
  blank : ∀ p, r.store.content p = none → (r.historyOf p).IsBlank

theorem lawful_start (v : Viewport) : (start v).Lawful where
  tracks p c hc := by
    cases p with
    | channel kind =>
      rw [start, FrameStore.content_empty_channel] at hc
      cases hc
      exact .empty _ _ rfl
    | aov name =>
      rw [start, FrameStore.content_empty_aov] at hc
      cases hc
  blank _ _ := rfl

theorem historyOf_next (r : StoreRun) (q : StoreRequest) (p : Place) :
    (r.next q).historyOf p = (p.event? (q, (r.store.serve q).2)).toList ++ r.historyOf p := by
  rw [historyOf, next, List.filterMap_cons]
  cases p.event? (q, (r.store.serve q).2) <;> rfl

theorem Lawful.reset {r : StoreRun} (hl : r.Lawful) (mode : ResetMode) : (r.next (.reset mode)).Lawful where
  tracks p c hc := by
    have hh : (r.next (.reset mode)).historyOf p = .reset (p.keepsValues mode) :: r.historyOf p :=
      historyOf_next r _ p
    rw [hh]
    replace hc : (r.store.content p).map (·.restart (p.keepsValues mode)) = some (.owned c) :=
      (FrameStore.content_reset r.store mode p).symm.trans hc
    obtain ⟨aov, ha, hr⟩ := Option.map_eq_some_iff.mp hc
    cases aov with
    | reference kind => cases hr
    | owned before =>
      have ht := hl.tracks p before ha
      simp only [Aov.restart, Aov.owned.injEq] at hr
      subst hr
      cases p.keepsValues mode with
      | true => exact ht.resetCoverage
      | false => exact ht.reset
  blank p hc := by
    replace hc : (r.store.content p).map (·.restart (p.keepsValues mode)) = none :=
      (FrameStore.content_reset r.store mode p).symm.trans hc
    rw [historyOf_next]
    exact hl.blank p (Option.map_eq_none_iff.mp hc)

theorem Lawful.write {r : StoreRun} (hl : r.Lawful) (w : Write) : (r.next (.write w)).Lawful := by
  have hlayout : (r.next (.write w)).store.layout = r.store.layout := r.store.layout_write w
  -- Elsewhere than at its place, a write changes neither the content nor the history.
  have hother (p : Place) (hp : p ≠ w.place) :
      (r.next (.write w)).store.content p = r.store.content p ∧
        (r.next (.write w)).historyOf p = r.historyOf p := by
    refine ⟨FrameStore.content_write_of_ne hp, ?_⟩
    rw [historyOf_next, FrameStore.serve]
    cases (r.store.write w).2 <;> simp [Place.event?, Ne.symm hp]
  -- At its place, the content after it tracks what was met, and there is content after an update.
  have hhere : (∀ c, (r.next (.write w)).store.content w.place = some (.owned c) →
        c.Tracks r.store.layout ((r.next (.write w)).historyOf w.place)) ∧
      ((r.next (.write w)).store.content w.place = none →
        ((r.next (.write w)).historyOf w.place).IsBlank) := by
    have heffect := r.store.write_effect w
    rw [historyOf_next, FrameStore.serve]
    change (∀ c, (r.store.write w).1.content w.place = _ → _) ∧ ((r.store.write w).1.content w.place = none → _)
    generalize (r.store.write w).1.content w.place = after at heffect
    generalize (r.store.write w).2 = answer at heffect
    cases heffect with
    | @merged u c c' hu hb hm ha =>
      subst ha
      refine ⟨fun d hd => ?_, nofun⟩
      cases hd
      have ht : c.Tracks r.store.layout (r.historyOf w.place) := by
        cases hc : r.store.content w.place with
        | none => rw [hc] at hb; cases hb; exact .empty _ _ (hl.blank _ hc)
        | some aov => rw [hc] at hb; cases hb; exact hl.tracks _ c hc
      simpa [Place.event?, hu] using ht.update hm
    | @aliased name kind hw ha =>
      subst ha
      refine ⟨fun d hd => ?_, nofun⟩
      have hnone : w.update? = none := by rw [hw]; rfl
      have ht : d.Tracks r.store.layout (r.historyOf w.place) := by
        cases hc : r.store.content w.place with
        | none => rw [hc] at hd; cases hd
        | some aov => rw [hc] at hd; cases hd; exact hl.tracks _ d hc
      simpa [Place.event?, hnone] using ht
    | @refused e ha =>
      rcases ha with ha | ⟨hnone, n, ha⟩
      · subst ha
        exact ⟨hl.tracks w.place, hl.blank w.place⟩
      · subst ha
        refine ⟨fun d hd => ?_, nofun⟩
        cases hd
        exact .empty _ _ (hl.blank _ hnone)
  constructor
  · intro p c hc
    rw [hlayout]
    by_cases hp : p = w.place
    · subst hp
      exact hhere.1 c hc
    · obtain ⟨hcontent, hhist⟩ := hother p hp
      rw [hhist]
      exact hl.tracks p c (hcontent ▸ hc)
  · intro p hc
    by_cases hp : p = w.place
    · subst hp
      exact hhere.2 hc
    · obtain ⟨hcontent, hhist⟩ := hother p hp
      rw [hhist]
      exact hl.blank p (hcontent ▸ hc)

theorem Lawful.next {r : StoreRun} (hl : r.Lawful) (q : StoreRequest) : (r.next q).Lawful := by
  cases q with
  | write w => exact hl.write w
  | reset mode => exact hl.reset mode

theorem Lawful.foldl {r : StoreRun} (hl : r.Lawful) (requests : List StoreRequest) :
    (requests.foldl StoreRun.next r).Lawful := by
  induction requests generalizing r with
  | nil => exact hl
  | cons q requests ih => exact ih (hl.next q)

theorem lawful_ofRequests (v : Viewport) (requests : List StoreRequest) : (ofRequests v requests).Lawful :=
  (lawful_start v).foldl requests

theorem layout_foldl (r : StoreRun) (requests : List StoreRequest) :
    (requests.foldl next r).store.layout = r.store.layout := by
  induction requests generalizing r with
  | nil => rfl
  | cons q requests ih =>
    rw [List.foldl_cons, ih]
    cases q with
    | write w => exact r.store.layout_write w
    | reset mode => rfl

theorem numChan_foldl (r : StoreRun) (requests : List StoreRequest) (kind : WellKnown) :
    ((requests.foldl next r).store.channel kind).numChan = (r.store.channel kind).numChan := by
  induction requests generalizing r with
  | nil => rfl
  | cons q requests ih =>
    rw [List.foldl_cons, ih]
    cases q with
    | write w => exact r.store.numChan_write w kind
    | reset mode => exact r.store.numChan_reset mode kind

/-- Frame assembly is last-writer-wins. After every run of requests to an empty store, refused ones among
them, each pixel of each channel is what the requests that succeeded prescribe; and a further request
that is refused leaves every place as it is, but for an empty AOV under a name that is new. -/
theorem ofRequests_shows (v : Viewport) (requests : List StoreRequest) :
    (∀ kind, ((ofRequests v requests).store.channel kind).numChan = kind.numChan ∧
      ((ofRequests v requests).store.channel kind).Shows ⟨v.width, v.height⟩
        ((ofRequests v requests).historyOf (.channel kind))) ∧
    (∀ name c, (ofRequests v requests).store.aov? name = some (.owned c) →
      c.Shows ⟨v.width, v.height⟩ ((ofRequests v requests).historyOf (.aov name))) ∧
    (∀ q e, ((ofRequests v requests).store.serve q).2 = .error e → ∀ p,
      ((ofRequests v requests).store.serve q).1.content p = (ofRequests v requests).store.content p ∨
        (ofRequests v requests).store.content p = none ∧ ∃ n,
          ((ofRequests v requests).store.serve q).1.content p = some (.owned (.empty ⟨v.width, v.height⟩ n))) := by
  have hl := lawful_ofRequests v requests
  have hlayout : (ofRequests v requests).store.layout = ⟨v.width, v.height⟩ := layout_foldl (start v) requests
  refine ⟨fun kind => ⟨?_, ?_⟩, fun name c hc => ?_, fun q e hq p => ?_⟩
  · rw [ofRequests, numChan_foldl, start, FrameStore.channel, FrameStore.empty, PerWellKnown.get_ofFn]
    rfl
  · exact hlayout ▸ (hl.tracks (.channel kind) _ rfl).shows
  · exact hlayout ▸ (hl.tracks (.aov name) c hc).shows
  · cases q with
    | reset mode => cases hq
    | write w =>
      by_cases hp : p = w.place
      · subst hp
        have heffect := (ofRequests v requests).store.write_effect w
        rw [show ((ofRequests v requests).store.write w).2 = .error e from hq, hlayout] at heffect
        cases heffect with
        | refused ha => exact ha
      · exact .inl (FrameStore.content_write_of_ne hp)

/-- Beauty and a weight arrive for the right one of two pixels and a frame starts that keeps colours. An AOV is seen
with one value for each pixel, then with two. -/
def twoPixelRequests : List StoreRequest :=
  [.write (.update .beauty (.onePixel ⟨2, 1⟩ 1 0 #[⟨1⟩, ⟨2⟩, ⟨3⟩, ⟨4⟩])),
    .write (.update .weight (.onePixel ⟨2, 1⟩ 1 0 #[⟨8⟩])), .reset .preserveColor,
    .write (.updateAov "normal" (.onePixel ⟨2, 1⟩ 1 0 #[⟨5⟩])),
    .write (.updateAov "normal" (.onePixel ⟨2, 1⟩ 0 0 #[⟨6⟩, ⟨7⟩]))]

/-- The reset takes the weight away, and of beauty no more than the coverage. The AOV keeps its one value. -/
theorem ofRequests_shows_twoPixelRequests :
    let r := ofRequests ⟨0, 0, 1, 0⟩ twoPixelRequests
    (r.store.channel .beauty).pixel? 1 0 = some #[⟨1⟩, ⟨2⟩, ⟨3⟩, ⟨4⟩] ∧
      (r.store.channel .beauty).mask.isSet 1 0 = false ∧
      (r.store.channel .weight).pixel? 1 0 = some #[⟨0⟩] ∧ (r.store.channel .weight).mask.isSet 1 0 = false ∧
      (∃ c, r.store.aov? "normal" = some (.owned c) ∧ c.mask.isSet 1 0 = true ∧ c.mask.isSet 0 0 = false) ∧
      (r.store.serve (.write (.updateAov "normal" (.onePixel ⟨2, 1⟩ 0 0 #[⟨6⟩, ⟨7⟩])))).2 =
        .error (.dimensionMismatch .channelCount 1 2) ∧
      (r.store.serve (.write (.updateAov "normal" (.onePixel ⟨2, 1⟩ 0 0 #[⟨6⟩, ⟨7⟩])))).1.content (.aov "normal") =
        r.store.content (.aov "normal") := by
  intro r
  obtain ⟨hchannels, haovs, hrefused⟩ := ofRequests_shows ⟨0, 0, 1, 0⟩ twoPixelRequests
  obtain ⟨c, hc⟩ : ∃ c, r.store.aov? "normal" = some (.owned c) := Aov.exists_owned (by decide +kernel)
  have herror : (r.store.serve (.write (.updateAov "normal" (.onePixel ⟨2, 1⟩ 0 0 #[⟨6⟩, ⟨7⟩])))).2 =
      .error (.dimensionMismatch .channelCount 1 2) := by decide +kernel
  refine ⟨?_, ?_, ?_, ?_, ⟨c, hc, ?_, ?_⟩, herror, ?_⟩
  · rw [(hchannels .beauty).2.values 1 0 (by decide), (hchannels .beauty).1]
    decide +kernel
  · rw [(hchannels .beauty).2.covered 1 0 (by decide)]
    decide +kernel
  · rw [(hchannels .weight).2.values 1 0 (by decide), (hchannels .weight).1]
    decide +kernel
  · rw [(hchannels .weight).2.covered 1 0 (by decide)]
    decide +kernel
  · rw [(haovs "normal" c hc).covered 1 0 (by decide)]
    decide +kernel
  · rw [(haovs "normal" c hc).covered 0 0 (by decide)]
    decide +kernel
  · rcases hrefused _ _ herror (.aov "normal") with hkept | ⟨hnone, -⟩
    · exact hkept
    · exact absurd (hnone.symm.trans hc) nofun

end StoreRun

end ProgressiveFrame
