import ProgressiveFrame.Proofs.Store.Readouts

/-!
# What a refused write leaves

A channel looks at the whole of an update before it writes any of it, so a write that is refused leaves no trace. There
is one exception. An update that is the first to name an AOV makes room for it before it is looked at, and the room is
not given back.

* `FrameStore.opens?`: the AOV for which a write makes room.
* `FrameStore.write_refused_eq`: all that a refused write does.
* `FrameStore.HasRoom`: a store that has an empty AOV more than another one. Requests that do not name the AOV keep this
  (`HasRoom.serve`), and all writes to other places are answered alike (`HasRoom.answer`).
* `FrameStore.write_refused_leaves`: so later writes succeed as if the refused one had not been made, but for updates of
  that AOV with another number of values.
* `FrameStore.write_refused_pins`: those are refused for good.
-/

namespace ProgressiveFrame

/-- The place that a request writes to, if it writes to one. -/
def StoreRequest.place? : StoreRequest → Option Place
  | .write w => some w.place
  | .reset _ => none

/-- A reset finds nothing in an empty channel. -/
@[simp] theorem Channel.reset_empty (layout : TileLayout) (numChan : Nat) :
    (Channel.empty layout numChan).reset = .empty layout numChan := by
  simp [Channel.reset, Channel.empty, PixelMask.clear, PixelMask.empty]

/-- A channel takes exactly the updates that fit. -/
theorem Write.mergeOwned_ok_iff {c : Channel} {u : TileUpdate} (hmask : c.mask.layout = c.layout) :
    (Write.mergeOwned c u).2 = .ok () ↔ u.Fits c.layout c.numChan := by
  rw [← TileUpdate.mismatch?_eq_none_iff, Write.mergeOwned, Channel.mergeUpdate]
  cases hfit : u.mismatch? c.layout c.numChan with
  | some e => simp
  | none =>
    have hlayout : c.mask.layout = u.mask.layout :=
      hmask.trans (TileUpdate.mismatch?_eq_none_iff.mp hfit).layout_eq.symm
    simp [PixelMask.merge, hlayout, bind, Except.bind, pure, Except.pure]

namespace FrameStore

variable {s t : FrameStore} {w : Write} {e : FrameError} {name : String} {n : Nat}

/-! ## One refused write -/

/-- The store with an empty AOV under a name, which has so many values for each pixel. -/
def withEmptyAov (s : FrameStore) (name : String) (numChan : Nat) : FrameStore :=
  { s with aovs := s.aovs.push (name, .owned (.empty s.layout numChan)) }

/-- The AOV that a write makes room for, with the number of its values: that of an update that is the first to name
it. -/
def opens? (s : FrameStore) : Write → Option (String × Nat)
  | .updateAov name u => if (s.aov? name).isNone then some (name, u.numChan) else none
  | .update .. | .reference .. => none

theorem opens?_eq_some (h : s.opens? w = some (name, n)) : w.place = .aov name ∧ s.aov? name = none := by
  cases w with
  | update kind u => cases h
  | reference other kind => cases h
  | updateAov other u =>
    simp only [opens?] at h
    split at h
    · rename_i hnew
      cases h
      exact ⟨rfl, Option.isNone_iff_eq_none.mp hnew⟩
    · cases h

/-- A refused write leaves the store as it is, but for the room that it has made. -/
theorem write_refused_eq (h : (s.write w).2 = .error e) :
    (s.write w).1 = match s.opens? w with
      | some (name, n) => s.withEmptyAov name n
      | none => s := by
  cases w with
  | reference name kind => cases h
  | update kind u =>
    simp only [write, mergeUpdate, opens?] at h ⊢
    split at h
    · cases h
    · rfl
  | updateAov name u =>
    simp only [write, mergeAov, opens?] at h ⊢
    cases hi : s.aovIndex? name with
    | some index =>
      have hlt : index < s.aovs.size := (Array.findIdx?_eq_some_iff_getElem.mp hi).1
      have hknown : (s.aov? name).isNone = false := by simp [aov?, hi, aovAt?, hlt]
      simp only [sightAov, hi, hknown, Bool.false_eq_true, if_false] at h ⊢
      split at h
      · split at h
        · cases h
        · rfl
      · rfl
    | none =>
      have hnew : (s.aov? name).isNone = true := by simp [aov?, hi]
      simp only [sightAov, hi, hnew, if_true] at h ⊢
      split at h
      · split at h
        · cases h
        · rfl
      · rfl

/-! ## Later writes -/

/-- The second store has an empty AOV under a name that the first one does not know, and is as good as the first one in
every other place. -/
structure HasRoom (s t : FrameStore) (name : String) (n : Nat) : Prop where
  layout : t.layout = s.layout
  new : s.content (.aov name) = none
  room : t.content (.aov name) = some (.owned (.empty s.layout n))
  others : ∀ p, p ≠ .aov name → t.content p = s.content p

theorem hasRoom_withEmptyAov (hnew : s.aov? name = none) (n : Nat) : s.HasRoom (s.withEmptyAov name n) name n := by
  have hsight : (s.sightAov name (.owned (.empty s.layout n))).1 = s.withEmptyAov name n := by
    cases hi : s.aovIndex? name with
    | none => simp only [sightAov, hi, withEmptyAov]
    | some index =>
      have hlt : index < s.aovs.size := (Array.findIdx?_eq_some_iff_getElem.mp hi).1
      simp [aov?, hi, aovAt?, hlt] at hnew
  have hcontent := content_sightAov s name (.owned (.empty s.layout n))
  rw [hsight] at hcontent
  refine ⟨rfl, hnew, ?_, fun p hp => ?_⟩
  · rw [hcontent, if_pos rfl, hnew, Option.getD_none]
  · rw [hcontent, if_neg hp]

/-- A write to another place is answered alike. -/
theorem HasRoom.answer (h : s.HasRoom t name n) (hw : w.place ≠ .aov name) : (t.write w).2 = (s.write w).2 := by
  rw [answer_write, answer_write, h.layout, h.others _ hw]

theorem HasRoom.write (h : s.HasRoom t name n) (hw : w.place ≠ .aov name) :
    (s.write w).1.HasRoom (t.write w).1 name n where
  layout := by rw [layout_write, layout_write, h.layout]
  new := (content_write_of_ne hw.symm).trans h.new
  room := by rw [content_write_of_ne hw.symm, layout_write, h.room]
  others p hp := by rw [content_write, content_write, h.layout, h.others _ hw, h.others p hp]

theorem HasRoom.reset (h : s.HasRoom t name n) (mode : ResetMode) : (s.reset mode).HasRoom (t.reset mode) name n where
  layout := h.layout
  new := by rw [content_reset, h.new, Option.map_none]
  room := by
    rw [content_reset, h.room, Option.map_some]
    simp [Aov.restart, Place.keepsValues]
  others p hp := by rw [content_reset, content_reset, h.others p hp]

theorem HasRoom.serve (h : s.HasRoom t name n) {q : StoreRequest} (hq : q.place? ≠ some (.aov name)) :
    (s.serve q).1.HasRoom (t.serve q).1 name n := by
  cases q with
  | write w => exact h.write fun hw => hq (congrArg some hw)
  | reset mode => exact h.reset mode

/-- Requests that do not name the AOV leave it empty, and everything else alike. -/
theorem HasRoom.afterAll (h : s.HasRoom t name n) {requests : List StoreRequest}
    (hr : ∀ q ∈ requests, q.place? ≠ some (.aov name)) :
    (s.afterAll (requests.map .request)).HasRoom (t.afterAll (requests.map .request)) name n := by
  induction requests generalizing s t with
  | nil => exact h
  | cons q requests ih =>
    obtain ⟨hq, hrest⟩ := List.forall_mem_cons.mp hr
    exact ih (h.serve hq) hrest

/-- The room takes an update exactly if a new AOV would, and the update has as many values as the room. -/
theorem HasRoom.updateAov_ok_iff (h : s.HasRoom t name n) (u : TileUpdate) :
    (t.write (.updateAov name u)).2 = .ok () ↔ (s.write (.updateAov name u)).2 = .ok () ∧ u.numChan = n := by
  have hroom : (t.write (.updateAov name u)).2 = (Write.mergeOwned (.empty s.layout n) u).2 := by
    rw [answer_write, Write.place, h.room]
    rfl
  have hnew : (s.write (.updateAov name u)).2 = (Write.mergeOwned (.empty s.layout u.numChan) u).2 := by
    rw [answer_write, Write.place, h.new]
    rfl
  rw [hroom, hnew, Write.mergeOwned_ok_iff rfl, Write.mergeOwned_ok_iff rfl]
  constructor
  · intro hfits
    obtain rfl := hfits.numChan_eq
    exact ⟨hfits, rfl⟩
  · rintro ⟨hfits, rfl⟩
    exact hfits

/-- A refused write leaves the store as it is, unless it is an update that is the first to name an AOV. Such an update
leaves an empty AOV with as many values as it has itself. Whatever is requested then that does not name the AOV, all other
places are what they would be without the refused update, later writes to them are answered as they would be without it,
and a later update of the AOV succeeds exactly if it would have succeeded and has as many values as the refused one. -/
theorem write_refused_leaves (s : FrameStore) (w : Write) (e : FrameError) (h : (s.write w).2 = .error e) :
    (s.opens? w = none → (s.write w).1 = s) ∧
    ∀ name n, s.opens? w = some (name, n) → (s.write w).1 = s.withEmptyAov name n ∧
      ∀ between : List StoreRequest, (∀ q ∈ between, q.place? ≠ some (.aov name)) →
        let without := s.afterAll (between.map .request)
        let refused := (s.write w).1.afterAll (between.map .request)
        (∀ p, p ≠ .aov name → refused.content p = without.content p) ∧
          (∀ later : Write, later.place ≠ .aov name → (refused.write later).2 = (without.write later).2) ∧
          ∀ u, (refused.write (.updateAov name u)).2 = .ok () ↔
            (without.write (.updateAov name u)).2 = .ok () ∧ u.numChan = n := by
  refine ⟨fun hnone => by rw [write_refused_eq h, hnone], fun name n hopens => ?_⟩
  have hleft : (s.write w).1 = s.withEmptyAov name n := by rw [write_refused_eq h, hopens]
  refine ⟨hleft, ?_⟩
  intro between hbetween without refused
  have hroom : without.HasRoom refused name n := by
    have hfirst := hasRoom_withEmptyAov (opens?_eq_some hopens).2 n
    rw [← hleft] at hfirst
    exact hfirst.afterAll hbetween
  exact ⟨hroom.others, fun later hlater => hroom.answer hlater, hroom.updateAov_ok_iff⟩

/-- An update of the only pixel of an image that should bring two values and brings one. -/
def halfUpdate : TileUpdate := { TileUpdate.onePixel ⟨1, 1⟩ 0 0 #[.one] with numChan := 2 }

theorem write_refused_leaves_halfUpdate :
    let s := FrameStore.empty ⟨0, 0, 0, 0⟩
    let w := Write.updateAov "depth" halfUpdate
    let colour := Write.update .beauty (.onePixel ⟨1, 1⟩ 0 0 #[.one, .one, .one, .one])
    (s.write w).2 = .error (.dimensionMismatch .decodedValueCount 2 1) ∧ s.opens? w = some ("depth", 2) ∧
      (s.write w).1 = s.withEmptyAov "depth" 2 ∧ ((s.write w).1.write colour).2 = .ok () := by
  intro s w colour
  have herror : (s.write w).2 = .error (.dimensionMismatch .decodedValueCount 2 1) := by decide +kernel
  have hopens : s.opens? w = some ("depth", 2) := by decide +kernel
  obtain ⟨hleft, hlater⟩ := (write_refused_leaves s w _ herror).2 "depth" 2 hopens
  obtain ⟨-, hanswer, -⟩ := hlater [] (by simp)
  exact ⟨herror, hopens, hleft, (hanswer colour nofun).trans (by decide +kernel)⟩

/-- The first update of an AOV is refused, and stays behind as an empty AOV of two values. The update of one value that
comes next would have been accepted, and is refused. -/
theorem write_refused_pins :
    let s := FrameStore.empty ⟨0, 0, 0, 0⟩
    let refused := s.write (.updateAov "depth" halfUpdate)
    let later := Write.updateAov "depth" (.onePixel ⟨1, 1⟩ 0 0 #[.one])
    refused.2 = .error (.dimensionMismatch .decodedValueCount 2 1) ∧ s.aovs.size = 0 ∧ refused.1.aovs.size = 1 ∧
      (s.write later).2 = .ok () ∧ (refused.1.write later).2 = .error (.dimensionMismatch .channelCount 2 1) := by
  decide +kernel

end FrameStore

end ProgressiveFrame
