import ProgressiveFrame.Proofs.Store.History

/-!
# Writes in a row

The buffers of a message are written one after another, up to the first write that is refused.

* **Places are independent**: a row succeeds exactly if in every place the writes to it succeed by
  themselves (`writeAll_ok_iff`), and it leaves there what those make of it (`content_writeAll`). Two
  rows that agree place by place are as good as each other (`writeAll_congr`).
* **Nothing is taken away** (`Channel.Keeps`): a merge leaves coverage where it is, and the values and
  ray counts of the pixels that it does not cover. So does a row of writes to a store that has been
  assembled by requests (`Assembled.keeps_writeAll`).
-/

namespace ProgressiveFrame

namespace Write

/-- What the writes to one place make of its content, up to the first that is refused. -/
def actAll (layout : TileLayout) : List Write → Option Aov → Option Aov × Except FrameError Unit
  | [], content => (content, .ok ())
  | w :: ws, content =>
    match w.act layout content with
    | (content, .ok ()) => actAll layout ws content
    | (content, .error e) => (content, .error e)

/-- The writes of a row to one place. -/
def onPlace (ws : List Write) (p : Place) : List Write := ws.filter (·.place = p)

/-- The updates of a row for one place. -/
def updatesOn (ws : List Write) (p : Place) : List TileUpdate := (onPlace ws p).filterMap (·.update?)

end Write

/-! ## Pixels that stay -/

/-- What a pixel has got is there later, but for what the updates in between cover. -/
structure Channel.Keeps (before after : Channel) (updates : List TileUpdate) : Prop where
  numChan_eq : after.numChan = before.numChan
  covered : ∀ x y, before.mask.isSet x y = true → after.mask.isSet x y = true
  values : ∀ x y, (∀ u ∈ updates, u.mask.isSet x y = false) → after.pixel? x y = before.pixel? x y
  counts : ∀ x y n, (∀ u ∈ updates, u.mask.isSet x y = false) →
    before.sampleCount? x y = some n → after.sampleCount? x y = some n

namespace Channel

variable {c c' c'' : Channel} {layout : TileLayout} {u : TileUpdate} {h : ChannelHistory}

theorem Keeps.refl (c : Channel) (updates : List TileUpdate) : c.Keeps c updates where
  numChan_eq := rfl
  covered _ _ hc := hc
  values _ _ _ := rfl
  counts _ _ _ _ hn := hn

theorem Keeps.trans {us vs : List TileUpdate} (hu : c.Keeps c' us) (hv : c'.Keeps c'' vs) :
    c.Keeps c'' (us ++ vs) where
  numChan_eq := hv.numChan_eq.trans hu.numChan_eq
  covered x y hc := hv.covered x y (hu.covered x y hc)
  values x y hnot := by
    rw [hv.values x y fun u hm => hnot u (List.mem_append_right us hm),
      hu.values x y fun u hm => hnot u (List.mem_append_left vs hm)]
  counts x y n hnot hn := hv.counts x y n (fun u hm => hnot u (List.mem_append_right us hm))
    (hu.counts x y n (fun u hm => hnot u (List.mem_append_left vs hm)) hn)

/-- A merge is no reset. -/
theorem Tracks.keeps_update (ht : c.Tracks layout h) (hu : c.mergeUpdate u = .ok c') : c.Keeps c' [u] := by
  have hbefore := ht.shows
  have hafter := (ht.update hu).shows
  obtain ⟨hf, mask, hmask, hc'⟩ := mergeUpdate_ok hu
  have hnum : c'.numChan = c.numChan := by rw [hc']
  have hlayout : c'.layout = c.layout := by rw [hc']
  -- Outside of the image there is nothing, before and after.
  have hcovers (x y : Nat) (hin : layout.inImage x y = true) (hnot : ∀ v ∈ [u], v.mask.isSet x y = false) :
      u.covers (layout.slot x y) = false := by
    have hset := hnot u (List.mem_singleton_self u)
    rw [PixelMask.isSet, hf.layout_eq, ht.layout_eq, hin, Bool.true_and] at hset
    exact hset
  refine ⟨hnum, fun x y hset => ?_, fun x y hnot => ?_, fun x y n hnot hn => ?_⟩
  · have hin : layout.inImage x y = true := by
      rw [PixelMask.isSet, ht.mask_layout, Bool.and_eq_true] at hset
      exact hset.1
    rw [hafter.covered x y hin, ChannelHistory.isCovered_update, ← hbefore.covered x y hin, hset, Bool.or_true]
  · cases hin : layout.inImage x y with
    | true =>
      rw [hafter.values x y hin, ChannelHistory.values_update, hcovers x y hin hnot, hnum, hbefore.values x y hin]
      simp
    | false => simp [pixel?, hlayout, ht.layout_eq, hin]
  · cases hin : layout.inImage x y with
    | true =>
      rw [hbefore.count x y hin] at hn
      obtain ⟨hcounts, rfl⟩ : h.hasCounts = true ∧ h.count (layout.slot x y) = n := by
        split at hn
        · exact ⟨‹_›, Option.some.inj hn⟩
        · cases hn
      have hat : u.countAt? (layout.slot x y) = none := by simp [TileUpdate.countAt?, hcovers x y hin hnot]
      rw [hafter.count x y hin, ChannelHistory.hasCounts_update, ChannelHistory.count_update, hcounts, hat]
      simp
    | false => simp [sampleCount?, ht.layout_eq, hin] at hn

end Channel

namespace FrameStore

variable {s t : FrameStore} {w : Write} {ws vs : List Write}

/-- The store after the writes of a row, up to the first that is refused. -/
def writeAll (s : FrameStore) : List Write → FrameStore × Except FrameError Unit
  | [] => (s, .ok ())
  | w :: ws =>
    match s.write w with
    | (s, .ok ()) => writeAll s ws
    | (s, .error e) => (s, .error e)

theorem writeAll_cons_of_ok (hw : (s.write w).2 = .ok ()) : s.writeAll (w :: ws) = (s.write w).1.writeAll ws := by
  rw [writeAll]
  generalize s.write w = r at hw
  obtain ⟨s', _⟩ := r
  cases hw
  rfl

theorem writeAll_cons_of_error {e : FrameError} (hw : (s.write w).2 = .error e) :
    s.writeAll (w :: ws) = ((s.write w).1, .error e) := by
  rw [writeAll]
  generalize s.write w = r at hw
  obtain ⟨s', _⟩ := r
  cases hw
  rfl

/-- What each write keeps is kept by a row of writes. -/
theorem writeAll_induct {motive : FrameStore → Prop} (write : ∀ s w, motive s → motive (s.write w).1)
    (start : motive s) (ws : List Write) : motive (s.writeAll ws).1 := by
  induction ws generalizing s with
  | nil => exact start
  | cons w ws ih =>
    cases hw : (s.write w).2 with
    | ok => rw [writeAll_cons_of_ok hw]; exact ih (write s w start)
    | error e => rw [writeAll_cons_of_error hw]; exact write s w start

/-- A row that goes on after one that has succeeded. -/
theorem writeAll_append (hv : (s.writeAll vs).2 = .ok ()) : s.writeAll (vs ++ ws) = (s.writeAll vs).1.writeAll ws := by
  induction vs generalizing s with
  | nil => rfl
  | cons v vs ih =>
    cases hw : (s.write v).2 with
    | ok =>
      rw [writeAll_cons_of_ok hw] at hv ⊢
      rw [List.cons_append, writeAll_cons_of_ok hw, ih hv]
    | error e =>
      rw [writeAll_cons_of_error hw] at hv
      cases hv

/-- Each part of a row that succeeds succeeds by itself. -/
theorem writeAll_append_ok (h : (s.writeAll (vs ++ ws)).2 = .ok ()) : (s.writeAll vs).2 = .ok () := by
  induction vs generalizing s with
  | nil => rfl
  | cons v vs ih =>
    cases hw : (s.write v).2 with
    | ok =>
      rw [List.cons_append, writeAll_cons_of_ok hw] at h
      rw [writeAll_cons_of_ok hw]
      exact ih h
    | error e =>
      rw [List.cons_append, writeAll_cons_of_error hw] at h
      cases h

@[simp] theorem viewport_writeAll (s : FrameStore) (ws : List Write) : (s.writeAll ws).1.viewport = s.viewport := by
  induction ws generalizing s with
  | nil => rfl
  | cons w ws ih =>
    cases hw : (s.write w).2 with
    | ok => rw [writeAll_cons_of_ok hw, ih, viewport_write]
    | error e => rw [writeAll_cons_of_error hw, viewport_write]

@[simp] theorem layout_writeAll (s : FrameStore) (ws : List Write) : (s.writeAll ws).1.layout = s.layout := by
  simp [layout]

/-! ## Places are independent -/

/-- A write that succeeds is the first of those to its place, and is no concern of any other. -/
theorem actAll_onPlace_cons (hw : (s.write w).2 = .ok ()) (ws : List Write) (p : Place) :
    Write.actAll s.layout (Write.onPlace (w :: ws) p) (s.content p) =
      Write.actAll s.layout (Write.onPlace ws p) ((s.write w).1.content p) := by
  by_cases hp : w.place = p
  · subst hp
    rw [answer_write] at hw
    rw [content_write, if_pos rfl, Write.onPlace, List.filter_cons_of_pos (by simp), Write.actAll]
    generalize w.act s.layout (s.content w.place) = r at hw
    obtain ⟨content, _⟩ := r
    cases hw
    rfl
  · rw [content_write_of_ne (Ne.symm hp), Write.onPlace, List.filter_cons_of_neg (by simpa using hp)]
    rfl

theorem writeAll_ok_iff (s : FrameStore) (ws : List Write) :
    (s.writeAll ws).2 = .ok () ↔
      ∀ p, (Write.actAll s.layout (Write.onPlace ws p) (s.content p)).2 = .ok () := by
  induction ws generalizing s with
  | nil => exact ⟨fun _ _ => rfl, fun _ => rfl⟩
  | cons w ws ih =>
    cases hw : (s.write w).2 with
    | ok =>
      rw [writeAll_cons_of_ok hw, ih, layout_write]
      exact forall_congr' fun p => by rw [actAll_onPlace_cons hw]
    | error e =>
      rw [writeAll_cons_of_error hw]
      refine ⟨nofun, fun hall => ?_⟩
      have hhere := hall w.place
      rw [answer_write] at hw
      rw [Write.onPlace, List.filter_cons_of_pos (by simp), Write.actAll] at hhere
      generalize w.act s.layout (s.content w.place) = r at hw hhere
      obtain ⟨content, _⟩ := r
      cases hw
      cases hhere

theorem content_writeAll (hok : (s.writeAll ws).2 = .ok ()) (p : Place) :
    (s.writeAll ws).1.content p = (Write.actAll s.layout (Write.onPlace ws p) (s.content p)).1 := by
  induction ws generalizing s with
  | nil => rfl
  | cons w ws ih =>
    cases hw : (s.write w).2 with
    | ok =>
      rw [writeAll_cons_of_ok hw] at hok ⊢
      rw [ih hok, layout_write, actAll_onPlace_cons hw]
    | error e =>
      rw [writeAll_cons_of_error hw] at hok
      cases hok

/-- Of a row that succeeds only the order of the writes to each place matters. -/
theorem writeAll_congr (hsame : ∀ p, Write.onPlace vs p = Write.onPlace ws p) (hok : (s.writeAll ws).2 = .ok ()) :
    (s.writeAll vs).2 = .ok () ∧ ∀ p, (s.writeAll vs).1.content p = (s.writeAll ws).1.content p := by
  have hvs : (s.writeAll vs).2 = .ok () := by
    rw [writeAll_ok_iff] at hok ⊢
    intro p
    rw [hsame p]
    exact hok p
  refine ⟨hvs, fun p => ?_⟩
  rw [content_writeAll hvs, content_writeAll hok, hsame p]

/-! ## Assembled stores -/

/-- The store has been assembled by requests. -/
def Assembled (s : FrameStore) : Prop := ∃ history, (StoreRun.mk s history).Lawful

theorem assembled_empty (v : Viewport) : (FrameStore.empty v).Assembled := ⟨[], StoreRun.lawful_start v⟩

theorem Assembled.serve (ha : s.Assembled) (q : StoreRequest) : (s.serve q).1.Assembled := by
  obtain ⟨history, hl⟩ := ha
  exact ⟨_, hl.next q⟩

/-- A channel outlives a write, with all that the write does not cover. -/
theorem Assembled.keeps_write (ha : s.Assembled) (w : Write) {p : Place} {c : Channel}
    (hc : s.content p = some (.owned c)) :
    ∃ c', (s.write w).1.content p = some (.owned c') ∧ c.Keeps c' (Write.updatesOn [w] p) := by
  obtain ⟨history, hl⟩ := ha
  by_cases hp : p = w.place
  · subst hp
    have heffect := s.write_effect w
    rw [hc] at heffect
    generalize (s.write w).1.content w.place = after, (s.write w).2 = answer at heffect
    cases heffect with
    | @merged u before c' hu hb hm hafter =>
      cases hb
      have hups : Write.updatesOn [w] w.place = [u] := by simp [Write.updatesOn, Write.onPlace, hu]
      exact ⟨c', hafter, hups ▸ (hl.tracks w.place c hc).keeps_update hm⟩
    | aliased hw hafter => exact ⟨c, hafter, .refl c _⟩
    | refused hafter =>
      rcases hafter with hafter | ⟨hnone, -⟩
      · exact ⟨c, hafter, .refl c _⟩
      · cases hnone
  · exact ⟨c, (content_write_of_ne hp).trans hc, .refl c _⟩

/-- Every channel outlives a row of writes, with all that they do not cover. -/
theorem Assembled.keeps_writeAll (ha : s.Assembled) (ws : List Write) {p : Place} {c : Channel}
    (hc : s.content p = some (.owned c)) :
    ∃ c', (s.writeAll ws).1.content p = some (.owned c') ∧ c.Keeps c' (Write.updatesOn ws p) := by
  induction ws generalizing s c with
  | nil => exact ⟨c, hc, .refl c _⟩
  | cons w ws ih =>
    obtain ⟨c', hc', hkeep⟩ := ha.keeps_write w hc
    have happend : Write.updatesOn (w :: ws) p = Write.updatesOn [w] p ++ Write.updatesOn ws p := by
      rw [Write.updatesOn, ← List.singleton_append, Write.onPlace, List.filter_append, List.filterMap_append]
      rfl
    cases hw : (s.write w).2 with
    | ok =>
      rw [writeAll_cons_of_ok hw, happend]
      obtain ⟨c'', hc'', hrest⟩ := ih (ha.serve (.write w)) hc'
      exact ⟨c'', hc'', hkeep.trans hrest⟩
    | error e =>
      rw [writeAll_cons_of_error hw, happend]
      exact ⟨c', hc', hkeep.trans (.refl c' _)⟩

end FrameStore

end ProgressiveFrame
