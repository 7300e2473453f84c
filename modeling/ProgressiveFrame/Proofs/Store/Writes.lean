import ProgressiveFrame.Proofs.Channel.History
import ProgressiveFrame.Store.Basic

/-!
# Writes

A buffer of a message asks a store for one of three writes. Each of them has a *place*: a well-known
channel, or the AOV of a name.

* `FrameStore.content`: what stands in a place, for both kinds of places an `Aov`.
* `Write.act`: what a write makes of the content of its own place, and how it is answered. It sees
  nothing else of the store.
* `content_write`, `answer_write`: a write acts on its place and on no other, so a store is as good as
  the contents of its places. Only the order of the AOVs is lost.
* `Write.Effect`: the three ways a write can end, with all that each of them does (`write_effect`).
* `content_reset`: a reset acts on every place by itself.
-/

namespace ProgressiveFrame

/-- A part of a store that is written as a whole. -/
inductive Place where
  | channel (kind : WellKnown)
  | aov (name : String)
deriving DecidableEq

/-- Whether a reset keeps the values of a place: those of beauty, of either eye, when colours are to be kept. -/
def Place.keepsValues (mode : ResetMode) : Place → Bool
  | .channel kind => decide (mode = .preserveColor ∧ (kind = .beauty ∨ kind = .beautyOdd))
  | .aov _ => false

theorem Place.keepsValues_channel (mode : ResetMode) (kind : WellKnown) :
    (Place.channel kind).keepsValues mode = decide (mode = .preserveColor ∧ kind.isColor) := by
  simp only [keepsValues, WellKnown.isColor_iff]

/-- What a reset makes of what stands in a place. -/
def Aov.restart (keepsValues : Bool) : Aov → Aov
  | .owned c => .owned (if keepsValues then c.resetCoverage else c.reset)
  | .reference kind => .reference kind

/-- Whether the AOV has a channel of its own. -/
def Aov.isOwned : Aov → Bool
  | .owned _ => true
  | .reference _ => false

theorem Aov.exists_owned {content : Option Aov} (h : content.any isOwned = true) : ∃ c, content = some (.owned c) := by
  obtain ⟨aov, rfl, ha⟩ := (Option.any_eq_true ..).mp h
  cases aov with
  | owned c => exact ⟨c, rfl⟩
  | reference kind => cases ha

/-- A request to store something. -/
inductive Write where
  | update (kind : WellKnown) (u : TileUpdate)
  | updateAov (name : String) (u : TileUpdate)
  | reference (name : String) (kind : ReferenceKind)

namespace Write

/-- The place that is written to. -/
def place : Write → Place
  | .update kind _ => .channel kind
  | .updateAov name _ => .aov name
  | .reference name _ => .aov name

/-- The update that is to be merged, if that is what is asked for. -/
def update? : Write → Option TileUpdate
  | .update _ u => some u
  | .updateAov _ u => some u
  | .reference .. => none

/-- A merge into a channel that stands in a place. -/
def mergeOwned (c : Channel) (u : TileUpdate) : Option Aov × Except FrameError Unit :=
  match c.mergeUpdate u with
  | .ok c' => (some (.owned c'), .ok ())
  | .error e => (some (.owned c), .error e)

/-- What a write makes of the content of its place. A well-known channel is always there. -/
def act (layout : TileLayout) : Write → Option Aov → Option Aov × Except FrameError Unit
  | .update _ u, some (.owned c) => mergeOwned c u
  | .update .., content => (content, .ok ())
  | .updateAov _ u, none => mergeOwned (.empty layout u.numChan) u
  | .updateAov _ u, some (.owned c) => mergeOwned c u
  | .updateAov name _, some (.reference kind) => (some (.reference kind), .error (.referenceAov name))
  | .reference _ kind, none => (some (.reference kind), .ok ())
  | .reference .., some aov => (some aov, .ok ())

/-- How a write can end, with the content of its place before and after it. -/
inductive Effect (layout : TileLayout) (w : Write) (before after : Option Aov) : Except FrameError Unit → Prop where
  /-- The update is merged. A new AOV gets an empty channel with as many values as the update has. -/
  | merged {u : TileUpdate} {c c' : Channel} (hu : w.update? = some u)
      (hb : before.getD (.owned (.empty layout u.numChan)) = .owned c) (hm : c.mergeUpdate u = .ok c')
      (ha : after = some (.owned c')) : Effect layout w before after (.ok ())
  /-- The name is an alias now, unless it has been seen before. -/
  | aliased {name : String} {kind : ReferenceKind} (hw : w = .reference name kind)
      (ha : after = some (before.getD (.reference kind))) : Effect layout w before after (.ok ())
  /-- The update is refused. All that can be left of it is an empty AOV under a new name. -/
  | refused {e : FrameError}
      (ha : after = before ∨ before = none ∧ ∃ n, after = some (.owned (.empty layout n))) :
      Effect layout w before after (.error e)

theorem effect_mergeOwned {layout : TileLayout} {w : Write} {before : Option Aov} {u : TileUpdate} {c : Channel}
    (hu : w.update? = some u) (hb : before.getD (.owned (.empty layout u.numChan)) = .owned c) :
    w.Effect layout before (mergeOwned c u).1 (mergeOwned c u).2 := by
  unfold mergeOwned
  cases hm : c.mergeUpdate u with
  | ok c' => exact .merged hu hb hm rfl
  | error e =>
    refine .refused ?_
    cases before with
    | none =>
      rw [Option.getD_none] at hb
      exact .inr ⟨rfl, u.numChan, congrArg some hb.symm⟩
    | some aov => exact .inl (congrArg some hb.symm)

end Write

namespace FrameStore

variable {s : FrameStore} {name other : String} {index : Nat} {aov : Aov}

/-- What stands in a place. -/
def content (s : FrameStore) : Place → Option Aov
  | .channel kind => some (.owned (s.channel kind))
  | .aov name => s.aov? name

/-- The store after a write, with the answer. -/
def write (s : FrameStore) : Write → FrameStore × Except FrameError Unit
  | .update kind u => s.mergeUpdate kind u
  | .updateAov name u => s.mergeAov name u
  | .reference name kind => (s.registerReference name kind, .ok ())

/-! ## The table of AOVs -/

theorem aov?_eq_find? (s : FrameStore) (name : String) :
    s.aov? name = (s.aovs.find? (·.1 == name)).map (·.2) := by
  unfold aov? aovIndex?
  cases hi : s.aovs.findIdx? (·.1 == name) with
  | none =>
    have hnone : s.aovs.find? (·.1 == name) = none := by
      rw [Array.find?_eq_none]
      intro entry hmem
      simp [Array.findIdx?_eq_none_iff.mp hi entry hmem]
    rw [hnone]
    rfl
  | some i =>
    obtain ⟨hlt, hp, hmin⟩ := Array.findIdx?_eq_some_iff_getElem.mp hi
    have hsome : s.aovs.find? (·.1 == name) = some s.aovs[i] := by
      rw [Array.find?_eq_some_iff_getElem]
      exact ⟨hp, i, hlt, rfl, fun j hj => by simpa using hmin j hj⟩
    rw [hsome]
    simp [aovAt?, hlt]

theorem aovIndex?_sightAov (s : FrameStore) (name : String) (aov : Aov) :
    (s.sightAov name aov).1.aovIndex? name = some (s.sightAov name aov).2 := by
  unfold sightAov
  cases hi : s.aovIndex? name with
  | some index => exact hi
  | none =>
    simp only [aovIndex?] at hi ⊢
    rw [Array.findIdx?_push, hi]
    simp

/-- The sight of a name adds the AOV under a new name and leaves every known one. -/
theorem aov?_sightAov (s : FrameStore) (name other : String) (aov : Aov) :
    (s.sightAov name aov).1.aov? other = if other = name then some ((s.aov? name).getD aov) else s.aov? other := by
  unfold sightAov
  cases hi : s.aovIndex? name with
  | some index =>
    obtain ⟨hlt, -⟩ := Array.findIdx?_eq_some_iff_getElem.mp hi
    have hat : s.aov? name = some s.aovs[index].2 := by simp [aov?, hi, aovAt?, hlt]
    by_cases heq : other = name
    · rw [if_pos heq, heq, hat]
      rfl
    · rw [if_neg heq]
  | none =>
    have hnone : s.aov? name = none := by simp [aov?, hi]
    by_cases heq : other = name
    · rw [if_pos heq, heq, hnone]
      rw [aov?_eq_find?] at hnone ⊢
      simp [Array.find?_push, Option.map_eq_none_iff.mp hnone]
    · rw [if_neg heq, aov?_eq_find?, aov?_eq_find?]
      simp [Array.find?_push, Ne.symm heq]

theorem aovAt?_of_aovIndex? (hi : s.aovIndex? name = some index) : s.aovAt? index = s.aov? name := by
  simp [aov?, hi]

theorem exists_aovIndex? (ha : s.aov? name = some aov) :
    ∃ index, s.aovIndex? name = some index ∧ s.aovAt? index = some aov := by
  cases hi : s.aovIndex? name with
  | some index => exact ⟨index, rfl, (aovAt?_of_aovIndex? hi).trans ha⟩
  | none => simp [aov?, hi] at ha

theorem sightAov_of_known (hi : s.aovIndex? name = some index) (aov : Aov) : s.sightAov name aov = (s, index) := by
  unfold sightAov
  rw [hi]

/-- The names of the AOVs, in the order of first sight. -/
def aovNames (s : FrameStore) : Array String := s.aovs.map (·.1)

@[simp] theorem size_aovNames (s : FrameStore) : s.aovNames.size = s.aovs.size := Array.size_map

/-- The index of a name is told from the names. -/
theorem aovIndex?_eq_findIdx? (s : FrameStore) (name : String) :
    s.aovIndex? name = s.aovNames.findIdx? (· == name) := by
  rw [aovNames, Array.findIdx?_map]
  rfl

@[simp] theorem aovNames_setAov (s : FrameStore) (index : Nat) (aov : Aov) :
    (s.setAov index aov).aovNames = s.aovNames := by
  apply Array.ext
  · simp [aovNames, setAov]
  · intro i _ _
    simp only [aovNames, setAov, Array.getElem_map, Array.getElem_modify]
    split <;> rfl

@[simp] theorem aovIndex?_setAov (s : FrameStore) (index : Nat) (aov : Aov) (name : String) :
    (s.setAov index aov).aovIndex? name = s.aovIndex? name := by
  rw [aovIndex?_eq_findIdx?, aovNames_setAov, aovIndex?_eq_findIdx?]

theorem aovAt?_setAov (s : FrameStore) (index i : Nat) (aov : Aov) :
    (s.setAov index aov).aovAt? i = if i = index then (s.aovAt? i).map fun _ => aov else s.aovAt? i := by
  simp only [aovAt?, setAov, Array.getElem?_modify, eq_comm (a := i)]
  split <;> simp [Function.comp_def]

/-- The AOV of a name is replaced at its index, and every other one stays. -/
theorem aov?_setAov (hi : s.aovIndex? name = some index) (other : String) (aov : Aov) :
    (s.setAov index aov).aov? other = if other = name then some aov else s.aov? other := by
  have hlt : index < s.aovs.size := (Array.findIdx?_eq_some_iff_getElem.mp hi).1
  simp only [aov?, aovIndex?_setAov]
  by_cases heq : other = name
  · rw [if_pos heq, heq, hi, Option.bind_eq_bind, Option.bind_some, aovAt?_setAov, if_pos rfl]
    simp [aovAt?, hlt]
  · rw [if_neg heq]
    cases hj : s.aovIndex? other with
    | none => rfl
    | some j =>
      have hne : j ≠ index := by
        rintro rfl
        obtain ⟨_, hp, -⟩ := Array.findIdx?_eq_some_iff_getElem.mp hi
        obtain ⟨_, hq, -⟩ := Array.findIdx?_eq_some_iff_getElem.mp hj
        exact heq ((beq_iff_eq.mp hq).symm.trans (beq_iff_eq.mp hp))
      simp [aovAt?_setAov, hne]

/-! ## One write -/

/-- A place that gets what it holds already. -/
theorem content_ite (s : FrameStore) (p₀ p : Place) : (if p = p₀ then s.content p₀ else s.content p) = s.content p := by
  split
  · rename_i heq
    rw [heq]
  · rfl

theorem content_setAov (hi : s.aovIndex? name = some index) (aov : Aov) (p : Place) :
    (s.setAov index aov).content p = if p = .aov name then some aov else s.content p := by
  cases p with
  | channel kind => rfl
  | aov other => simpa [content] using aov?_setAov hi other aov

theorem channel_sightAov (s : FrameStore) (name : String) (aov : Aov) (kind : WellKnown) :
    (s.sightAov name aov).1.channel kind = s.channel kind := by
  unfold sightAov
  split <;> rfl

theorem content_sightAov (s : FrameStore) (name : String) (aov : Aov) (p : Place) :
    (s.sightAov name aov).1.content p = if p = .aov name then some ((s.aov? name).getD aov) else s.content p := by
  cases p with
  | channel kind => simp [content, channel_sightAov]
  | aov other => simpa [content] using aov?_sightAov s name other aov

theorem content_setChannel (s : FrameStore) (kind : WellKnown) (c : Channel) (p : Place) :
    (s.setChannel kind c).content p = if p = .channel kind then some (.owned c) else s.content p := by
  cases p with
  | channel other => by_cases h : other = kind <;> simp [content, h]
  | aov other => rfl

@[simp] theorem viewport_sightAov (s : FrameStore) (name : String) (aov : Aov) :
    (s.sightAov name aov).1.viewport = s.viewport := by
  unfold sightAov
  split <;> rfl

@[simp] theorem viewport_write (s : FrameStore) (w : Write) : (s.write w).1.viewport = s.viewport := by
  cases w with
  | update kind u => simp only [write, mergeUpdate]; split <;> rfl
  | updateAov name u =>
    simp only [write, mergeAov]
    split
    · split <;> exact viewport_sightAov ..
    · exact viewport_sightAov ..
  | reference name kind => exact viewport_sightAov ..

@[simp] theorem layout_write (s : FrameStore) (w : Write) : (s.write w).1.layout = s.layout := by
  simp [layout]

theorem mergeUpdate_spec (s : FrameStore) (kind : WellKnown) (u : TileUpdate) :
    (∀ p, (s.mergeUpdate kind u).1.content p =
      if p = .channel kind then (Write.mergeOwned (s.channel kind) u).1 else s.content p) ∧
      (s.mergeUpdate kind u).2 = (Write.mergeOwned (s.channel kind) u).2 := by
  unfold mergeUpdate Write.mergeOwned
  cases (s.channel kind).mergeUpdate u with
  | ok c => exact ⟨content_setChannel s kind c, rfl⟩
  | error e => exact ⟨fun p => (content_ite s (.channel kind) p).symm, rfl⟩

/-- A merge into an AOV that owns its channel, one that is new included. -/
theorem mergeAov_owned {c : Channel} {u : TileUpdate}
    (hc : (s.aov? name).getD (.owned (.empty s.layout u.numChan)) = .owned c) :
    (∀ p, (s.mergeAov name u).1.content p =
      if p = .aov name then (Write.mergeOwned c u).1 else s.content p) ∧
      (s.mergeAov name u).2 = (Write.mergeOwned c u).2 := by
  have hi := aovIndex?_sightAov s name (.owned (.empty s.layout u.numChan))
  have hcontent := content_sightAov s name (.owned (.empty s.layout u.numChan))
  have hat := (aovAt?_of_aovIndex? hi).trans (aov?_sightAov s name name _)
  rw [if_pos rfl, hc] at hat
  rw [hc] at hcontent
  unfold mergeAov Write.mergeOwned
  simp only [hat]
  cases c.mergeUpdate u with
  | ok c' =>
    refine ⟨fun p => ?_, rfl⟩
    rw [content_setAov hi, hcontent]
    split <;> rfl
  | error e => exact ⟨hcontent, rfl⟩

/-- A merge into an AOV that borrows its pixels. -/
theorem mergeAov_reference {kind : ReferenceKind} {u : TileUpdate} (hr : s.aov? name = some (.reference kind)) :
    s.mergeAov name u = (s, .error (.referenceAov name)) := by
  obtain ⟨index, hi, hat⟩ := exists_aovIndex? hr
  rw [mergeAov, sightAov_of_known hi]
  simp only [hat]

/-- A write makes of its place what `Write.act` says, leaves every other place, and is answered from the
content of its place. -/
theorem write_spec (s : FrameStore) (w : Write) :
    (∀ p, (s.write w).1.content p =
      if p = w.place then (w.act s.layout (s.content w.place)).1 else s.content p) ∧
      (s.write w).2 = (w.act s.layout (s.content w.place)).2 := by
  cases w with
  | update kind u => exact mergeUpdate_spec s kind u
  | reference name kind =>
    have hcontent := content_sightAov s name (.reference kind)
    simp only [write, registerReference, Write.place]
    simp only [content] at hcontent ⊢
    cases ha : s.aov? name with
    | none => rw [ha] at hcontent; exact ⟨hcontent, rfl⟩
    | some aov => rw [ha] at hcontent; exact ⟨hcontent, rfl⟩
  | updateAov name u =>
    simp only [write, Write.place]
    cases ha : s.aov? name with
    | none =>
      have hget : (s.aov? name).getD (.owned (.empty s.layout u.numChan)) = .owned (.empty s.layout u.numChan) := by
        rw [ha, Option.getD_none]
      simpa [content, ha, Write.act] using mergeAov_owned hget
    | some aov =>
      cases aov with
      | owned c =>
        have hget : (s.aov? name).getD (.owned (.empty s.layout u.numChan)) = .owned c := by
          rw [ha, Option.getD_some]
        simpa [content, ha, Write.act] using mergeAov_owned hget
      | reference kind =>
        rw [mergeAov_reference ha]
        have hact : (Write.updateAov name u).act s.layout (s.content (.aov name)) =
            (s.content (.aov name), .error (.referenceAov name)) := by simp [content, ha, Write.act]
        rw [hact]
        exact ⟨fun p => (content_ite s (.aov name) p).symm, rfl⟩

theorem content_write (s : FrameStore) (w : Write) (p : Place) :
    (s.write w).1.content p =
      if p = w.place then (w.act s.layout (s.content w.place)).1 else s.content p := (write_spec s w).1 p

theorem answer_write (s : FrameStore) (w : Write) : (s.write w).2 = (w.act s.layout (s.content w.place)).2 :=
  (write_spec s w).2

theorem content_write_of_ne {w : Write} {p : Place} (h : p ≠ w.place) : (s.write w).1.content p = s.content p := by
  rw [content_write, if_neg h]

theorem write_effect (s : FrameStore) (w : Write) :
    w.Effect s.layout (s.content w.place) ((s.write w).1.content w.place) (s.write w).2 := by
  rw [content_write, if_pos rfl, answer_write]
  cases w with
  | update kind u => exact Write.effect_mergeOwned rfl rfl
  | reference name kind =>
    cases hb : s.content (.aov name) with
    | none => simp only [Write.place, hb]; exact .aliased rfl rfl
    | some aov => simp only [Write.place, hb]; exact .aliased rfl rfl
  | updateAov name u =>
    cases hb : s.content (.aov name) with
    | none => simp only [Write.place, hb]; exact Write.effect_mergeOwned rfl rfl
    | some aov =>
      cases aov with
      | owned c => simp only [Write.place, hb]; exact Write.effect_mergeOwned rfl rfl
      | reference kind => simp only [Write.place, hb]; exact .refused (.inl rfl)

theorem numChan_write (s : FrameStore) (w : Write) (kind : WellKnown) :
    ((s.write w).1.channel kind).numChan = (s.channel kind).numChan := by
  by_cases hp : .channel kind = w.place
  · have heffect := s.write_effect w
    rw [← hp] at heffect
    simp only [content] at heffect
    generalize (s.write w).1.channel kind = after, (s.write w).2 = answer, s.channel kind = before at *
    cases heffect with
    | merged hu hb hm ha =>
      cases hb
      cases ha
      obtain ⟨-, mask, -, hc⟩ := Channel.mergeUpdate_ok hm
      rw [hc]
    | aliased hw ha => cases ha; rfl
    | refused ha =>
      rcases ha with ha | ⟨hnone, -⟩
      · cases ha; rfl
      · cases hnone
  · have := content_write_of_ne (s := s) hp
    simp only [content, Option.some.injEq, Aov.owned.injEq] at this
    rw [this]

/-! ## Resets and the empty store -/

theorem numChan_reset (s : FrameStore) (mode : ResetMode) (kind : WellKnown) :
    ((s.reset mode).channel kind).numChan = (s.channel kind).numChan := by
  rw [channel_reset]
  split <;> rfl

/-- A reset wipes every AOV and keeps their order. -/
theorem aovs_reset (s : FrameStore) (mode : ResetMode) :
    (s.reset mode).aovs = s.aovs.map fun entry => (entry.1, entry.2.restart false) := by
  apply Array.map_congr_left
  rintro ⟨_, aov⟩ -
  cases aov <;> rfl

@[simp] theorem aovNames_reset (s : FrameStore) (mode : ResetMode) : (s.reset mode).aovNames = s.aovNames := by
  rw [aovNames, aovs_reset, Array.map_map]
  rfl

theorem aovAt?_reset (s : FrameStore) (mode : ResetMode) (index : Nat) :
    (s.reset mode).aovAt? index = (s.aovAt? index).map (·.restart false) := by
  rw [aovAt?, aovs_reset, aovAt?, Array.getElem?_map, Option.map_map, Option.map_map]
  rfl

theorem aov?_reset (s : FrameStore) (mode : ResetMode) (name : String) :
    (s.reset mode).aov? name = (s.aov? name).map (·.restart false) := by
  have hindex : (s.reset mode).aovIndex? name = s.aovIndex? name := by
    rw [aovIndex?_eq_findIdx?, aovNames_reset, aovIndex?_eq_findIdx?]
  rw [aov?, hindex, aov?]
  cases s.aovIndex? name with
  | none => rfl
  | some index => exact s.aovAt?_reset mode index

/-- A reset restarts the content of each place. -/
theorem content_reset (s : FrameStore) (mode : ResetMode) (p : Place) :
    (s.reset mode).content p = (s.content p).map (·.restart (p.keepsValues mode)) := by
  cases p with
  | channel kind => simp [content, channel_reset, Aov.restart, Place.keepsValues_channel]
  | aov name => exact aov?_reset s mode name

@[simp] theorem layout_reset (s : FrameStore) (mode : ResetMode) : (s.reset mode).layout = s.layout := rfl

@[simp] theorem content_empty_channel (v : Viewport) (kind : WellKnown) :
    (FrameStore.empty v).content (.channel kind) = some (.owned (.empty ⟨v.width, v.height⟩ kind.numChan)) := by
  simp [content, channel, empty]

@[simp] theorem content_empty_aov (v : Viewport) (name : String) :
    (FrameStore.empty v).content (.aov name) = none := by
  simp [content, aov?, aovIndex?, empty]

end FrameStore

end ProgressiveFrame
